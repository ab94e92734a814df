import SpaceLink.Text.Numeral
import SpaceLink.Text.Split

/-! # Hosts

The host of a socket is a machine's address of 32 bits, or of eight words of sixteen bits, or a name
that stands for one. Addresses are read from several writings and have one usual one: the short
ones as four numbers with dots between, the long ones in brackets, as hexadecimal words with colons
between and the longest row of zeros left out.
-/
namespace SpaceLink

inductive Host where
  | short (address : UInt32)
  | long (words : List UInt16)
  deriving DecidableEq

namespace Host

/-- A number in one of three bases: behind `0x` sixteen, behind another zero eight, else ten. -/
def number? : List Char → Option Nat
  | ['0'] => some 0
  | '0' :: 'x' :: digits | '0' :: 'X' :: digits => Text.digitsIn? 16 digits
  | '0' :: digits => Text.digitsIn? 8 digits
  | digits => Text.digits? digits

/-- Up to four numbers with dots between. All but the last are bytes, and the last fills what they
leave. -/
def short? (text : List Char) : Option Host := do
  let numbers ← (Text.parts '.' text).mapM number?
  let (bytes, last) := (numbers.dropLast, numbers.getLastD 0)
  let free := 4 - bytes.length
  if bytes.length < 4 ∧ bytes.all (· < 256) ∧ last < 1 <<< (8 * free) then
    let front := bytes.foldl (fun n byte => 256 * n + byte) 0
    return short (UInt32.ofNat (front <<< (8 * free) + last))
  else none

def word? (digits : List Char) : Option UInt16 :=
  if digits.length ≤ 4 then (Text.digitsIn? 16 digits).map UInt16.ofNat else none

def words? (text : List Char) : Option (List UInt16) :=
  if text.isEmpty then some [] else (Text.parts ':' text).mapM word?

/-- Eight words; two colons stand once for as many zeros as are missing. -/
def long? (text : List Char) : Option Host := do
  match Text.splitFirst? [':', ':'] text with
  | none =>
    let words ← words? text
    if words.length = 8 then return long words else none
  | some (before, after) =>
    let (high, low) := (← words? before, ← words? after)
    let given := high.length + low.length
    if given < 8 then return long (high ++ List.replicate (8 - given) 0 ++ low) else none

/-- The address that a text writes. A long one may stand in brackets. -/
def read? : List Char → Option Host
  | '[' :: text => if text.getLast? = some ']' then long? text.dropLast else none
  | text => short? text <|> long? text

def joinWords (words : List UInt16) : String :=
  ":".intercalate (words.map fun word => String.ofList (Text.hexDigits false word.toNat))

def render : Host → String
  | short address =>
    ".".intercalate ([24, 16, 8, 0].map fun shift => toString (address.toNat >>> shift % 256))
  | long words =>
    let rows := (List.range words.length).map fun start =>
      ((words.drop start).takeWhile (· == 0)).length
    let longest := rows.foldl max 0
    let start := rows.idxOf longest
    if 1 < longest then
      "[" ++ joinWords (words.take start) ++ "::" ++ joinWords (words.drop (start + longest)) ++ "]"
    else "[" ++ joinWords words ++ "]"

def loopback : Host := short 0x7F000001

def isUnspecified : Host → Bool
  | short address => address == 0
  | long words => words.all (· == 0)

def isLong : Host → Bool
  | short _ => false
  | long _ => true

/-- Letters, digits, hyphens and underscores, in parts of up to 63 with dots between. A dot may
stand at the end, and a hyphen not at the beginning. -/
def isName (text : List Char) : Bool :=
  let parts := Text.parts '.' text
  let parts := if parts.getLast? = some [] then parts.dropLast else parts
  let isPart (part : List Char) : Bool := !part.isEmpty && decide (part.length ≤ 63) &&
    part.all fun c => c.isAlphanum || c == '-' || c == '_'
  !text.isEmpty && decide (text.length ≤ 253) && text.head? != some '-' &&
    (text == ['.'] || parts.all isPart)

end Host
end SpaceLink
