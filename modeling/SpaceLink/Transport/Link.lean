import SpaceLink.Transport.Error
import SpaceLink.Transport.Message
import SpaceLink.Transport.Service

/-! # Transports

What every kind of link can do. A transport carries bodies that are encoded already; framing and
fragmentation are its own affair. Once it is closed it sends nothing and reports no failure.
-/
namespace SpaceLink

class Transport (τ : Type) where
  address : τ → String
  send : τ → Bytes → Except TransportError Unit × τ
  /-- The next message; there is no result as long as none has come and some may. -/
  receive? : τ → Option (Except TransportError Message) × τ
  supports : τ → Interaction → Bool
  honours : τ → QualityOfService → Bool
  close : τ → Except TransportError Unit × τ
  isClosed : τ → Bool

/-- Messages that wait for their receiver, the oldest first. A bound on their number makes the
listener wait and loses none, so there is no bound here: whoever receives is taken to go on. Left out
is also how a listener ends that has nobody to hand a message to. This happens behind a link that was
given up, and so is closed, and the listener shuts nothing then. -/
structure Inbox where
  waiting : List Message := []
  ended : Bool := false

namespace Inbox

def push (i : Inbox) (message : Message) : Inbox := { i with waiting := i.waiting ++ [message] }

def finish (i : Inbox) : Inbox := { i with ended := true }

/-- What was handed over before the end is still there after it. -/
def receive? (i : Inbox) : Option (Except TransportError Message) × Inbox :=
  match i.waiting with
  | message :: rest => (some (.ok message), { i with waiting := rest })
  | [] => (if i.ended then some (.error .shutdown) else none, i)

end Inbox
end SpaceLink
