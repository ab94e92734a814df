import SpaceLink.BitField
import SpaceLink.Can.Error

/-! # Identifiers

The fields of a fragment are packed into the identifier of its frame, from the transaction in the
lowest bits up to the source node in the highest, so lower sources win the bus. A layout gives the
widths.
-/
namespace SpaceLink

/-- The part that a frame plays in its transaction. -/
inductive FrameType where
  | retransmit | start | last | continuation
  | reserved (value : UInt32)
  deriving DecidableEq

namespace FrameType

def bits : FrameType → UInt32
  | retransmit => 0
  | start => 1
  | last => 2
  | continuation => 3
  | reserved value => value

def ofBits (value : UInt32) : FrameType :=
  if value = 0 then retransmit else if value = 1 then start else if value = 2 then last
  else if value = 3 then continuation else reserved value

def label : FrameType → String
  | retransmit => "RETRANSMIT"
  | start => "START"
  | last => "END"
  | continuation => "CONTINUE"
  | reserved value => s!"RESERVED({value.toNat})"

end FrameType

structure Identifier where
  src : UInt32
  dst : UInt32
  frameType : FrameType
  /-- How many frames of the transaction are still to follow. -/
  remain : UInt32
  transaction : UInt32
  deriving DecidableEq

/-- Bit widths of the fields. Nodes on one bus share a layout. -/
structure Layout where
  srcBits : Nat
  dstBits : Nat
  typeBits : Nat
  remainBits : Nat
  transactionBits : Nat
  deriving DecidableEq

namespace Layout

def identifierBits : Nat := 29

/-- Nodes of 7 bits, 8 bits of frames to follow, 5 of transaction. -/
def extended : Layout := ⟨7, 7, 2, 8, 5⟩

def named (l : Layout) : List (String × Nat) :=
  [("src", l.srcBits), ("dst", l.dstBits), ("type", l.typeBits), ("remain", l.remainBits),
    ("transaction", l.transactionBits)]

def total (l : Layout) : Nat :=
  l.srcBits + l.dstBits + l.typeBits + l.remainBits + l.transactionBits

/-- Each field has a bit, the type has two, and all of them fit an extended identifier. -/
def validate (l : Layout) : Except CanError Unit :=
  match l.named.find? (·.2 = 0) with
  | some (name, _) => .error (.invalidLayout (name ++ " field has zero width"))
  | none =>
    if l.typeBits < 2 then
      .error (.invalidLayout s!"type field needs at least 2 bits, got {l.typeBits}")
    else if identifierBits < l.total then
      .error (.invalidLayout s!"fields total {l.total} bits, max {identifierBits}")
    else .ok ()

/-- The sum of the widths as a 32-bit number, which stays at the greatest one. -/
def totalBits (l : Layout) : Nat := min l.total (UInt32.size - 1)

def maxFrames (l : Layout) : Nat := 1 <<< l.remainBits

def transactionWrap (l : Layout) : Nat := 1 <<< l.transactionBits

/-- The greatest node that can be a source as well as a destination. -/
def maxNode (l : Layout) : Nat := 1 <<< min l.srcBits l.dstBits - 1

end Layout

structure IdentifierFields where
  transaction : BitField
  remain : BitField
  frameType : BitField
  dst : BitField
  src : BitField

namespace Layout

/-- The fields lie one above the other without a gap. -/
def place? (l : Layout) : Option IdentifierFields := do
  let transaction ← BitField.of? 0 l.transactionBits
  let remain ← transaction.above? l.remainBits
  let frameType ← remain.above? l.typeBits
  let dst ← frameType.above? l.dstBits
  let src ← dst.above? l.srcBits
  return ⟨transaction, remain, frameType, dst, src⟩

def fields (l : Layout) : Except CanError IdentifierFields := do
  l.validate
  match l.place? with
  | some fields => .ok fields
  | none => .error (.invalidLayout "fields do not fit a word")

/-- Writes one field after the other, up to the first value that is too wide for its field. -/
def packFields : List (String × BitField × UInt32) → UInt64 → Except CanError UInt64
  | [], word => .ok word
  | (name, field, value) :: rest, word =>
    match field.insert? word value.toUInt64 with
    | some word => packFields rest word
    | none => .error (.fieldOverflow name value.toNat field.width)

def pack (l : Layout) (id : Identifier) : Except CanError UInt32 := do
  let f ← l.fields
  let word ← packFields
    [("transaction_id", f.transaction, id.transaction), ("remain", f.remain, id.remain),
      ("frame_type", f.frameType, id.frameType.bits), ("dst", f.dst, id.dst),
      ("src", f.src, id.src)] 0
  return word.toUInt32

def unpack (l : Layout) (raw : UInt32) : Except CanError Identifier := do
  let f ← l.fields
  let get (field : BitField) : UInt32 := (field.extract raw.toUInt64).toUInt32
  return ⟨get f.src, get f.dst, .ofBits (get f.frameType), get f.remain, get f.transaction⟩

end Layout
end SpaceLink
