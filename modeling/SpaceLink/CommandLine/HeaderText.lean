import SpaceLink.CommandLine.Failure
import SpaceLink.Packet.Header
import SpaceLink.Text.Blank

/-! # Headers as text

A header is given as hexadecimal digits, two a byte. Blanks and colons may stand anywhere, and the
mark of hexadecimal numbers may stand in front. The length is counted in bytes of the text, and a
pair of digits is a pair of such bytes.
-/
namespace SpaceLink

inductive HeaderTextError where
  | wrongLength (length : Nat)
  /-- A character takes more than the two bytes of a pair, or begins in one pair and ends in the
  next. -/
  | notAscii
  | invalidByte (pair : List Char)
  deriving DecidableEq

namespace HeaderTextError

def message : HeaderTextError → String
  | wrongLength length => s!"header must be {2 * Header.size} hex digits, got {length}"
  | notAscii => "header must be ASCII hex"
  | invalidByte pair => "invalid hex byte `" ++ String.ofList pair ++ "`"

end HeaderTextError

namespace HeaderText

def withoutMarks : List Char → List Char
  | '0' :: 'x' :: rest => withoutMarks rest
  | text => text

def isSeparator (c : Char) : Bool := Text.isBlank c || c = ':'

/-- What is left when blanks around, marks in front and separators are taken away. -/
def digits (text : List Char) : List Char :=
  (withoutMarks (Text.trim text)).filter fun c => !isSeparator c

def byteLength (text : List Char) : Nat := text.foldl (fun n c => n + c.utf8Size) 0

/-- A byte from two digits; a plus sign may stand for the first. -/
def pairValue? (a b : Char) : Option UInt8 := do
  let high ← if a = '+' then some 0 else Text.hexDigit? a
  let low ← Text.hexDigit? b
  return UInt8.ofNat (16 * high + low)

/-- Reads pair after pair. A character of two bytes is a pair of its own, and no digits. -/
def readPairs : List Char → Except HeaderTextError Bytes
  | [] => .ok []
  | [c] => .error (if c.utf8Size = 2 then .invalidByte [c] else .notAscii)
  | a :: b :: rest =>
    if a.utf8Size = 2 then .error (.invalidByte [a])
    else if a.utf8Size ≠ 1 ∨ b.utf8Size ≠ 1 then .error .notAscii
    else match pairValue? a b with
      | none => .error (.invalidByte [a, b])
      | some byte => (readPairs rest).map (byte :: ·)

def read (text : String) : Except HeaderTextError Bytes :=
  let digits := digits text.toList
  if byteLength digits = 2 * Header.size then readPairs digits
  else .error (.wrongLength (byteLength digits))

end HeaderText
end SpaceLink
