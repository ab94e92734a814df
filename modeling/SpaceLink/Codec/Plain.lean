import SpaceLink.Codec.Value

/-! # The plain form

After the marker each element is the tag of its kind and its value, or the null tag alone. The form
describes itself, so it can be read with or without knowing the kinds.
-/
namespace SpaceLink.Plain

def nullTag : UInt8 := 0

def writeElement : Element → Except CodecError Bytes
  | none => .ok [nullTag]
  | some value => value.write.map (value.kind.tag :: ·)

def encode (elements : List Element) : Except CodecError Bytes := do
  let parts ← elements.mapM writeElement
  return Codec.plain.marker :: parts.flatten

/-- The kind that the next tag stands for, or none for null. -/
def readTag (input : Bytes) : Except CodecError (Option Kind × Bytes) := do
  let (tag, rest) ← takeWord 1 input
  let tag := UInt8.ofNat tag
  if tag = nullTag then .ok (none, rest)
  else match Kind.ofTag? tag with
    | some kind => .ok (some kind, rest)
    | none => .error (.unknownTag tag)

def readElement (expected : Kind) (index : Nat) (input : Bytes) :
    Except CodecError (Element × Bytes) := do
  let (found?, rest) ← readTag input
  match found? with
  | none => .ok (none, rest)
  | some found =>
    if found = expected then (Value.read found index rest).map fun (value, rest) => (some value, rest)
    else .error (.typeMismatch index expected found)

def readElements : List Kind → Nat → Bytes → Except CodecError (List Element × Bytes)
  | [], _, input => .ok ([], input)
  | kind :: kinds, index, input => do
    let (element, rest) ← readElement kind index input
    let (elements, rest) ← readElements kinds (index + 1) rest
    return (element :: elements, rest)

/-- Decodes one element per kind, and nothing may be left after the last. -/
def decode (kinds : List Kind) (bytes : Bytes) : Except CodecError (List Element) := do
  let input ← Codec.plain.bodyOf bytes
  let (elements, rest) ← readElements kinds 0 input
  if rest.isEmpty then .ok elements else .error (.trailingBytes rest.length)

/-- Reads the element at `index`, of whatever kind its tag says. -/
def readAny (index : Nat) (input : Bytes) : Except CodecError (Element × Bytes) := do
  let (found?, rest) ← readTag input
  match found? with
  | none => .ok (none, rest)
  | some found => (Value.read found index rest).map fun (value, rest) => (some value, rest)

/-- Reads elements until the input is used up. Each takes a byte at least, so as many steps as
there are bytes are enough. -/
def readAll : Nat → Nat → Bytes → Except CodecError (List Element)
  | _, _, [] => .ok []
  | 0, _, rest => .error (.trailingBytes rest.length)
  | steps + 1, index, input => do
    let (element, rest) ← readAny index input
    let elements ← readAll steps (index + 1) rest
    return element :: elements

def decodeUntyped (bytes : Bytes) : Except CodecError (List Element) := do
  let input ← Codec.plain.bodyOf bytes
  readAll input.length 0 input

end SpaceLink.Plain
