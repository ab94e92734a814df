import SpaceLink.Bytes

/-! # Elements

A message body is a sequence of elements: typed values, any of which may be null. A kind is the
type of a slot, and its tag stands for it on the wire; zero is left to null.
-/
namespace SpaceLink

inductive Kind where
  | boolean | octet | uOctet | short | uShort | integer | uInteger | long | uLong | float | double
  | string | identifier | uri | blob | time | fineTime | duration
  deriving DecidableEq

namespace Kind

/-- All kinds in the order of their tags, which start at one. -/
def all : List Kind :=
  [boolean, octet, uOctet, short, uShort, integer, uInteger, long, uLong, float, double,
    string, identifier, uri, blob, time, fineTime, duration]

def tag : Kind → UInt8
  | boolean => 1 | octet => 2 | uOctet => 3 | short => 4 | uShort => 5 | integer => 6
  | uInteger => 7 | long => 8 | uLong => 9 | float => 10 | double => 11 | string => 12
  | identifier => 13 | uri => 14 | blob => 15 | time => 16 | fineTime => 17 | duration => 18

def ofTag? (tag : UInt8) : Option Kind := all.find? (·.tag == tag)

theorem ofTag?_tag (k : Kind) : ofTag? k.tag = some k := by cases k <;> rfl

theorem tag_of_ofTag? {tag : UInt8} {k : Kind} (h : ofTag? tag = some k) : k.tag = tag := by
  simpa using List.find?_some h

theorem tag_ne_zero (k : Kind) : k.tag ≠ 0 := by cases k <;> decide

def name : Kind → String
  | boolean => "boolean" | octet => "octet" | uOctet => "u_octet" | short => "short"
  | uShort => "u_short" | integer => "integer" | uInteger => "u_integer" | long => "long"
  | uLong => "u_long" | float => "float" | double => "double" | string => "string"
  | identifier => "identifier" | uri => "uri" | blob => "blob" | time => "time"
  | fineTime => "fine_time" | duration => "duration"

def ofName? (name : String) : Option Kind := all.find? (·.name == name)

/-- The name in messages to a person. -/
def label : Kind → String
  | boolean => "Boolean" | octet => "Octet" | uOctet => "UOctet" | short => "Short"
  | uShort => "UShort" | integer => "Integer" | uInteger => "UInteger" | long => "Long"
  | uLong => "ULong" | float => "Float" | double => "Double" | string => "String"
  | identifier => "Identifier" | uri => "Uri" | blob => "Blob" | time => "Time"
  | fineTime => "FineTime" | duration => "Duration"

/-- Encoded width of a value; text and blobs have none, a length stands before them. -/
def width? : Kind → Option Nat
  | boolean | octet | uOctet => some 1
  | short | uShort => some 2
  | integer | uInteger | float => some 4
  | long | uLong | double | time | fineTime | duration => some 8
  | string | identifier | uri | blob => none

end Kind

/-- A typed value. Floating point numbers are held by their bits, so that no two of them are
confused; times count milliseconds or nanoseconds since the epoch. -/
inductive Value where
  | boolean (value : Bool)
  | octet (value : Int8)
  | uOctet (value : UInt8)
  | short (value : Int16)
  | uShort (value : UInt16)
  | integer (value : Int32)
  | uInteger (value : UInt32)
  | long (value : Int64)
  | uLong (value : UInt64)
  | float (bits : UInt32)
  | double (bits : UInt64)
  | string (text : String)
  | identifier (text : String)
  | uri (text : String)
  | blob (bytes : Bytes)
  | time (value : UInt64)
  | fineTime (value : UInt64)
  | duration (bits : UInt64)
  deriving DecidableEq

def Value.kind : Value → Kind
  | boolean _ => .boolean | octet _ => .octet | uOctet _ => .uOctet | short _ => .short
  | uShort _ => .uShort | integer _ => .integer | uInteger _ => .uInteger | long _ => .long
  | uLong _ => .uLong | float _ => .float | double _ => .double | string _ => .string
  | identifier _ => .identifier | uri _ => .uri | blob _ => .blob | time _ => .time
  | fineTime _ => .fineTime | duration _ => .duration

/-- One slot of a message body; `none` is null. -/
abbrev Element := Option Value

end SpaceLink
