import SpaceLink.Codec.Flags
import SpaceLink.Codec.Value

/-! # The split form

After the marker stands a row of flags, one per element that says whether it is null and then the
value of each boolean that is not; then follow the other values, untagged and in order. A reader has
to know the kinds.
-/
namespace SpaceLink.Split

def booleans (elements : List Element) : List Bool :=
  elements.filterMap fun
    | some (.boolean b) => some b
    | _ => none

/-- All flags of a message body in their order on the wire. -/
def flags (elements : List Element) : List Bool := elements.map Option.isNone ++ booleans elements

/-- What stands behind the flags for one element. -/
def writeElement : Element → Except CodecError Bytes
  | none | some (.boolean _) => .ok []
  | some value => value.write

def encode (elements : List Element) : Except CodecError Bytes := do
  let parts ← elements.mapM writeElement
  return Codec.split.marker :: (Flags.pack (flags elements) ++ parts.flatten)

/-- Takes `n` flags, or reports the byte that the next one would be in. -/
def takeFlags (n : Nat) (reader : Flags.Reader) : Except CodecError (List Bool × Flags.Reader) :=
  match reader.take? n with
  | some taken => .ok taken
  | none => .error (.unexpectedEof 1 0)

def booleanCount (kinds : List Kind) (nulls : List Bool) : Nat :=
  (kinds.zip nulls).countP fun (kind, null) => kind == .boolean && !null

/-- Fills the slots, each with its null flag, from the boolean flags and the value bytes. -/
def readElements : List (Kind × Bool) → Nat → List Bool → Bytes →
    Except CodecError (List Element × Bytes)
  | [], _, _, input => .ok ([], input)
  | (kind, null) :: slots, index, values, input => do
    if null then
      let (elements, rest) ← readElements slots (index + 1) values input
      return (none :: elements, rest)
    else if kind = .boolean then
      let (elements, rest) ← readElements slots (index + 1) values.tail input
      return (values.head?.map .boolean :: elements, rest)
    else
      let (value, rest) ← Value.read kind index input
      let (elements, rest) ← readElements slots (index + 1) values rest
      return (some value :: elements, rest)

/-- Decodes one element per kind, and nothing may be left after the last. -/
def decode (kinds : List Kind) (bytes : Bytes) : Except CodecError (List Element) := do
  let body ← Codec.split.bodyOf bytes
  let (nulls, reader) ← takeFlags kinds.length (.ofBytes body)
  let (values, reader) ← takeFlags (booleanCount kinds nulls) reader
  let (elements, rest) ← readElements (kinds.zip nulls) 0 values (body.drop reader.consumed)
  if rest.isEmpty then .ok elements else .error (.trailingBytes rest.length)

end SpaceLink.Split
