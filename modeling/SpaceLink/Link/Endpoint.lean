import SpaceLink.Codec.Stream
import SpaceLink.Link.Error
import SpaceLink.Transport.Link

/-! # Endpoints

A transport together with the codec that both of its ends agreed on: messages are sequences of
elements.
-/
namespace SpaceLink

structure ReceivedElements where
  source : String
  elements : List Element
  properties : Properties

structure Endpoint (τ : Type) where
  transport : τ
  codec : Codec

namespace Endpoint

variable {τ : Type} [Transport τ]

/-- Sends elements as one message; what cannot be encoded is not sent. -/
def send (e : Endpoint τ) (elements : List Element) : Except LinkError Unit × Endpoint τ :=
  match e.codec.encode elements with
  | .error error => (.error (.codec error), e)
  | .ok body =>
    let (result, transport) := Transport.send e.transport body
    (result.mapError .transport, { e with transport := transport })

def decode (codec : Codec) (kinds : List Kind) (message : Message) :
    Except LinkError ReceivedElements :=
  match codec.decode kinds message.body with
  | .error error => .error (.codec error)
  | .ok elements => .ok ⟨message.source, elements, message.properties⟩

/-- The next message, as the given kinds. One that cannot be decoded is used up. -/
def receive? (e : Endpoint τ) (kinds : List Kind) :
    Option (Except LinkError ReceivedElements) × Endpoint τ :=
  let (received, transport) := Transport.receive? e.transport
  let e := { e with transport := transport }
  match received with
  | none => (none, e)
  | some (.error error) => (some (.error (.transport error)), e)
  | some (.ok message) => (some (decode e.codec kinds message), e)

end Endpoint
end SpaceLink
