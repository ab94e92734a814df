import SpaceLink.Can.Fragmenter
import SpaceLink.Can.Reassembler
import SpaceLink.Link.Address
import SpaceLink.Link.Config
import SpaceLink.Link.ResendCache
import SpaceLink.Transport.Link

/-! # Links over a bus

A message is one transaction to the peer node. The link keeps the frames that it sent last and
repeats them on request, and it may ask for a transaction whose frames break off. A write that fails
while a message is sent, and a read that fails, close the link; closing shuts the bus once.
-/
namespace SpaceLink

/-- The bus as a link meets it: whether each frame offered is taken, by the number of the call, what
has been taken so far, and whether the bus can be shut. -/
structure BusAccess where
  answer : Nat → Option CanError := fun _ => none
  shutFault : Option CanError := none
  calls : Nat := 0
  sent : List CanFrame := []
  shutdowns : Nat := 0

namespace BusAccess

def send (bus : BusAccess) (frame : CanFrame) : Except CanError Unit × BusAccess :=
  match bus.answer bus.calls with
  | some error => (.error error, { bus with calls := bus.calls + 1 })
  | none => (.ok (), { bus with calls := bus.calls + 1, sent := bus.sent ++ [frame] })

/-- Sends frames up to the first that is not taken. -/
def sendAll : List CanFrame → BusAccess → Except CanError Unit × BusAccess
  | [], bus => (.ok (), bus)
  | frame :: rest, bus =>
    match bus.send frame with
    | (.error error, bus) => (.error error, bus)
    | (.ok (), bus) => sendAll rest bus

def shutdown (bus : BusAccess) : BusAccess := { bus with shutdowns := bus.shutdowns + 1 }

/-- What shutting the bus gives. -/
def shutResult (bus : BusAccess) : Except CanError Unit :=
  match bus.shutFault with
  | some error => .error error
  | none => .ok ()

/-- From now on takes `more` frames, or any number, and refuses the rest. -/
def limit (bus : BusAccess) (more : Option Nat) (error : CanError) : BusAccess :=
  let last := bus.calls
  { bus with answer := fun call =>
      match more with
      | some more => if call < last + more then none else some error
      | none => none }

end BusAccess

structure CanLink where
  config : CanLinkConfig
  bus : BusAccess
  fragmenter : Fragmenter
  reassembler : Reassembler
  cache : ResendCache
  inbox : Inbox := {}
  closed : Bool := false

namespace CanLink

def srcProperty : String := "src_node"
def dstProperty : String := "dst_node"
def transactionProperty : String := "transaction_id"

/-- Opens a link. Room for as many sent transactions and waiting messages as the configuration allows
is taken to be there, however many they are. -/
def «open» (bus : BusAccess) (config : CanLinkConfig) : Except LinkError CanLink := do
  config.validate
  let fragmenter ← (Fragmenter.of config.can).mapError .can
  let reassembler ← (Reassembler.of config.can (some config.localNode)).mapError .can
  return {
    config := config
    bus := bus
    fragmenter := fragmenter
    reassembler := reassembler
    cache := { depth := config.resendCache } }

def address (link : CanLink) : String := canAddress link.config.localNode

def describe (link : CanLink) : String :=
  "CanTransport \x7b address: " ++ Text.quoted link.address ++
    s!", peer_node: {link.config.peerNode.toNat}, closed: {link.closed} \x7d"

/-- Closes the link and shuts the bus, unless that has been done. -/
def shut (link : CanLink) : CanLink :=
  if link.closed then link else { link with closed := true, bus := link.bus.shutdown }

/-- Closes the link for its owner, who is told what shutting the bus gives. -/
def close (link : CanLink) : Except LinkError Unit × CanLink :=
  (if link.closed then .ok () else link.bus.shutResult.mapError .can, link.shut)

/-- Cuts a message into the frames of a new transaction and keeps them. -/
def prepare (link : CanLink) (body : Bytes) : Except LinkError (List CanFrame) × CanLink :=
  let (cut, fragmenter) :=
    link.fragmenter.fragment link.config.localNode link.config.peerNode body
  let link := { link with fragmenter := fragmenter }
  match cut with
  | .error error => (.error (.can error), link)
  | .ok fragments =>
    match fragments.mapM (Fragment.toCan link.config.can.layout) with
    | .error error => (.error (.can error), link)
    | .ok frames =>
      let transaction := (fragments.head?.map (·.identifier.transaction)).getD 0
      (.ok frames, { link with cache := link.cache.insert ⟨transaction, link.config.peerNode, frames⟩ })

/-- Puts prepared frames on the bus. A failure closes the link, and is none of the sender's if the
link has been closed meanwhile. -/
def write (link : CanLink) (frames : List CanFrame) : Except LinkError Unit × CanLink :=
  match link.bus.sendAll frames with
  | (.ok (), bus) => (.ok (), { link with bus := bus })
  | (.error error, bus) =>
    (if link.closed then .ok () else .error (.can error), shut { link with bus := bus })

/-- Sends one message. A closed link takes it and does nothing. -/
def send (link : CanLink) (body : Bytes) : Except LinkError Unit × CanLink :=
  if link.closed then (.ok (), link)
  else match link.prepare body with
    | (.error error, link) => (.error error, link)
    | (.ok frames, link) => link.write frames

/-- Repeats a transaction for a node that asked for it; what is no longer kept is not repeated. -/
def resend (link : CanLink) (requester transaction : UInt32) : CanLink :=
  match link.cache.find? transaction requester with
  | none => link
  | some frames => { link with bus := (link.bus.sendAll frames).2 }

def request (link : CanLink) (src transaction : UInt32) : CanLink :=
  let request := Fragmenter.retransmissionRequest link.config.localNode src transaction
  match request.toCan link.config.can.layout with
  | .error _ => link
  | .ok frame => { link with bus := (link.bus.send frame).2 }

def messageOf (key : TransactionKey) (payload : Bytes) : Message :=
  (((Message.of (canAddress key.src) payload).withProperty srcProperty s!"{key.src.toNat}").withProperty
    dstProperty s!"{key.dst.toNat}").withProperty transactionProperty s!"{key.transaction.toNat}"

/-- A message has the bytes of the transaction, comes from the node that sent it, and shows its key. -/
theorem messageOf_eq (key : TransactionKey) (payload : Bytes) :
    messageOf key payload = {
      source := canAddress key.src
      body := payload
      properties := [("dst_node", s!"{key.dst.toNat}"), ("source", canAddress key.src),
        ("src_node", s!"{key.src.toNat}"), ("transaction_id", s!"{key.transaction.toNat}")] } := rfl

def act (link : CanLink) : Except CanError ReassemblyEvent → CanLink
  | .ok (.delivered key payload) => { link with inbox := link.inbox.push (messageOf key payload) }
  | .ok (.retransmissionRequested requester _ transaction) => link.resend requester transaction
  | .ok .pending | .ok .ignored => link
  | .error (.sequenceAnomaly src _ transaction _ _) =>
    if link.config.requestRetransmission then link.request src transaction else link
  | .error _ => link

/-- What the listener does with one answer of the bus. The first failure is the last that it hears. -/
def hear (link : CanLink) (received : Except CanError CanFrame) : CanLink :=
  if link.inbox.ended then link
  else match received with
    | .error _ => let link := link.shut; { link with inbox := link.inbox.finish }
    | .ok frame =>
      let (event, reassembler) := link.reassembler.acceptCan frame
      act { link with reassembler := reassembler } event

def hearAll (link : CanLink) (frames : List CanFrame) : CanLink :=
  frames.foldl (fun link frame => link.hear (.ok frame)) link

/-- A bus that the link has shut gives its listener nothing but the end. -/
def settle (link : CanLink) : CanLink := if link.closed then link.hear (.error .busClosed) else link

instance : Transport CanLink where
  address := address
  send link body :=
    let (result, link) := link.send body
    (result.mapError LinkError.toTransport, link)
  receive? link :=
    let (result, inbox) := link.inbox.receive?
    (result, { link with inbox := inbox })
  supports _ interaction := interaction != .pubSub
  honours _ _ := true
  close link :=
    let (result, link) := link.close
    (result.mapError LinkError.toTransport, link)
  isClosed link := link.closed

end CanLink
end SpaceLink
