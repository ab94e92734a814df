import SpaceLink.Can.Frame
import SpaceLink.Gathered
import SpaceLink.Store

/-! # Reassembly

The frames of a transaction are joined as they count down. One buffer is open per source,
destination and transaction; a frame that breaks the row closes it.
-/
namespace SpaceLink

structure TransactionKey where
  src : UInt32
  dst : UInt32
  transaction : UInt32
  deriving DecidableEq

/-- What has come of a transaction, and the count of its next frame. -/
structure OpenTransaction where
  data : Gathered
  expectedRemain : UInt32

structure Reassembler where
  config : CanConfig
  /-- If set, only frames to this node count. -/
  localNode : Option UInt32 := none
  buffers : Store TransactionKey OpenTransaction := {}

inductive ReassemblyEvent where
  | pending
  | delivered (key : TransactionKey) (payload : Bytes)
  | retransmissionRequested (requester target transaction : UInt32)
  | ignored
  deriving DecidableEq

namespace Reassembler

def of (config : CanConfig) (localNode : Option UInt32) : Except CanError Reassembler := do
  config.validate
  return { config := config, localNode := localNode }

def pending (r : Reassembler) : Nat := r.buffers.size

def keyOf (id : Identifier) : TransactionKey := ⟨id.src, id.dst, id.transaction⟩

/-- Opens a transaction with its first frame, or completes it at once. -/
def start (r : Reassembler) (id : Identifier) (data : Bytes) : ReassemblyEvent × Reassembler :=
  let key := keyOf id
  if id.remain = 0 then (.delivered key data, { r with buffers := r.buffers.erase key })
  else (.pending, { r with buffers := r.buffers.insert key ⟨.of data, id.remain - 1⟩ })

/-- Joins a later frame to its transaction. -/
def join (r : Reassembler) (id : Identifier) (isLast : Bool) (data : Bytes) :
    Except CanError ReassemblyEvent × Reassembler :=
  let key := keyOf id
  let closed := { r with buffers := r.buffers.erase key }
  match r.buffers.get? key with
  | none => (.error (.unknownTransaction id.src id.dst id.transaction), closed)
  | some started =>
    if id.remain ≠ started.expectedRemain ∨ isLast ≠ decide (id.remain = 0) then
      (.error (.sequenceAnomaly id.src id.dst id.transaction started.expectedRemain id.remain),
        closed)
    else
      let data := started.data.append data
      if isLast then (.ok (.delivered key data.bytes), closed)
      else (.ok .pending,
        { r with buffers := r.buffers.insert key ⟨data, started.expectedRemain - 1⟩ })

/-- Takes a frame in. A request for retransmission closes the transaction that it asks for, which
runs the other way. -/
def accept (r : Reassembler) (f : Fragment) : Except CanError ReassemblyEvent × Reassembler :=
  let id := f.identifier
  if r.localNode.any (· ≠ id.dst) then (.ok .ignored, r)
  else if r.config.maxFrameData < f.data.length then
    (.error (.frameDataTooLarge f.data.length r.config.maxFrameData), r)
  else match id.frameType with
    | .start =>
      let (event, r) := r.start id f.data
      (.ok event, r)
    | .continuation => r.join id false f.data
    | .last => r.join id true f.data
    | .retransmit =>
      (.ok (.retransmissionRequested id.src id.dst id.transaction),
        { r with buffers := r.buffers.erase ⟨id.dst, id.src, id.transaction⟩ })
    | .reserved _ => (.ok .ignored, r)

def acceptCan (r : Reassembler) (frame : CanFrame) :
    Except CanError ReassemblyEvent × Reassembler :=
  match Fragment.ofCan r.config.layout frame with
  | .error error => (.error error, r)
  | .ok f => r.accept f

end Reassembler
end SpaceLink
