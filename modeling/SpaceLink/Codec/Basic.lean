import SpaceLink.Element.Basic
import SpaceLink.Text.Numeral

/-! # Codecs and their errors

The two wire forms of a message body. A stream opens with the marker of its form, so a peer set up
for the other form fails on the first byte and misreads nothing.
-/
namespace SpaceLink

/-- `plain` writes a tag before each value; `split` writes all flags first and then the values
without tags. -/
inductive Codec where
  | plain | split
  deriving DecidableEq

namespace Codec

def marker : Codec → UInt8
  | plain => 0xB1
  | split => 0xB2

def name : Codec → String
  | plain => "plain"
  | split => "split"

def label : Codec → String
  | plain => "plain binary"
  | split => "split binary"

def all : List Codec := [plain, split]

def ofName? (name : String) : Option Codec := all.find? (·.name == name)

end Codec

inductive CodecError where
  | unexpectedEof (needed remaining : Nat)
  | emptyStream
  | strategyMismatch (expected : Codec) (found : UInt8)
  | unknownTag (tag : UInt8)
  | typeMismatch (index : Nat) (expected found : Kind)
  | invalidBoolean (index : Nat) (byte : UInt8)
  | invalidUtf8 (index : Nat)
  | tooLong (length : Nat)
  | trailingBytes (count : Nat)
  deriving DecidableEq

def CodecError.message : CodecError → String
  | unexpectedEof needed remaining =>
    s!"unexpected end of stream (needed {needed} bytes, {remaining} left)"
  | emptyStream => "empty stream"
  | strategyMismatch expected found =>
    "stream marker 0x" ++ Text.hex 2 found.toNat ++ " does not match " ++ expected.label ++ " codec"
  | unknownTag tag => "unknown type tag 0x" ++ Text.hex 2 tag.toNat
  | typeMismatch index expected found =>
    s!"element {index}: expected " ++ expected.label ++ ", found " ++ found.label
  | invalidBoolean index byte =>
    s!"element {index}: invalid boolean byte 0x" ++ Text.hex 2 byte.toNat
  | invalidUtf8 index => s!"element {index}: text is not valid UTF-8"
  | tooLong length => s!"element of {length} bytes exceeds the length prefix"
  | trailingBytes count => s!"{count} trailing bytes after last element"

/-- What stands after the marker of a stream. -/
def Codec.bodyOf (codec : Codec) : Bytes → Except CodecError Bytes
  | [] => .error .emptyStream
  | found :: body =>
    if found = codec.marker then .ok body else .error (.strategyMismatch codec found)

end SpaceLink
