import SpaceLink.Codec.Basic

/-! # Values on the wire

Numbers are big-endian words of a fixed width. Text and blobs carry a length of four bytes in
front. Both wire forms write values in this way, and a value says nothing of its own kind.
-/
namespace SpaceLink

/-- The greatest length that the length in front of a text or blob can tell. -/
def maxLength : Nat := UInt32.size - 1

def withLength (bytes : Bytes) : Except CodecError Bytes :=
  if bytes.length ≤ maxLength then .ok (Bytes.ofWord 4 bytes.length ++ bytes)
  else .error (.tooLong bytes.length)

def Value.write : Value → Except CodecError Bytes
  | .boolean b => .ok [if b then 1 else 0]
  | .octet n => .ok [n.toUInt8]
  | .uOctet n => .ok [n]
  | .short n => .ok (Bytes.ofWord 2 n.toUInt16.toNat)
  | .uShort n => .ok (Bytes.ofWord 2 n.toNat)
  | .integer n => .ok (Bytes.ofWord 4 n.toUInt32.toNat)
  | .uInteger n | .float n => .ok (Bytes.ofWord 4 n.toNat)
  | .long n => .ok (Bytes.ofWord 8 n.toUInt64.toNat)
  | .uLong n | .double n | .time n | .fineTime n | .duration n => .ok (Bytes.ofWord 8 n.toNat)
  | .string t | .identifier t | .uri t => withLength (utf8 t)
  | .blob b => withLength b

def takeBytes (n : Nat) (input : Bytes) : Except CodecError (Bytes × Bytes) :=
  if n ≤ input.length then .ok (input.take n, input.drop n)
  else .error (.unexpectedEof n input.length)

def takeWord (width : Nat) (input : Bytes) : Except CodecError (Nat × Bytes) :=
  (takeBytes width input).map fun (bytes, rest) => (Bytes.word bytes, rest)

def takeWithLength (input : Bytes) : Except CodecError (Bytes × Bytes) := do
  let (length, rest) ← takeWord 4 input
  takeBytes length rest

/-- Reads a value of the given kind; `index` is the place of its element, for errors. -/
def Value.read (kind : Kind) (index : Nat) (input : Bytes) : Except CodecError (Value × Bytes) :=
  match kind with
  | .boolean => do
    let (n, rest) ← takeWord 1 input
    if n = 0 then .ok (.boolean false, rest)
    else if n = 1 then .ok (.boolean true, rest)
    else .error (.invalidBoolean index (UInt8.ofNat n))
  | .octet => number 1 fun n => .octet (UInt8.ofNat n).toInt8
  | .uOctet => number 1 fun n => .uOctet (UInt8.ofNat n)
  | .short => number 2 fun n => .short (UInt16.ofNat n).toInt16
  | .uShort => number 2 fun n => .uShort (UInt16.ofNat n)
  | .integer => number 4 fun n => .integer (UInt32.ofNat n).toInt32
  | .uInteger => number 4 fun n => .uInteger (UInt32.ofNat n)
  | .long => number 8 fun n => .long (UInt64.ofNat n).toInt64
  | .uLong => number 8 fun n => .uLong (UInt64.ofNat n)
  | .float => number 4 fun n => .float (UInt32.ofNat n)
  | .double => number 8 fun n => .double (UInt64.ofNat n)
  | .string => text .string
  | .identifier => text .identifier
  | .uri => text .uri
  | .blob => (takeWithLength input).map fun (bytes, rest) => (.blob bytes, rest)
  | .time => number 8 fun n => .time (UInt64.ofNat n)
  | .fineTime => number 8 fun n => .fineTime (UInt64.ofNat n)
  | .duration => number 8 fun n => .duration (UInt64.ofNat n)
where
  number (width : Nat) (make : Nat → Value) : Except CodecError (Value × Bytes) :=
    (takeWord width input).map fun (n, rest) => (make n, rest)
  text (make : String → Value) : Except CodecError (Value × Bytes) := do
    let (bytes, rest) ← takeWithLength input
    match ofUtf8? bytes with
    | some t => .ok (make t, rest)
    | none => .error (.invalidUtf8 index)

end SpaceLink
