/-! # Numerals

Hexadecimal text in fixed and free widths, and the decimal texts that stand for bounded
numbers in addresses and arguments.
-/
namespace SpaceLink.Text

def hexDigit (upper : Bool) (n : Nat) : Char :=
  if n < 10 then Char.ofNat ('0'.toNat + n)
  else Char.ofNat ((if upper then 'A' else 'a').toNat + (n - 10))

/-- The value of a hexadecimal digit of either case. -/
def hexDigit? (c : Char) : Option Nat :=
  if c.isDigit then some (c.toNat - '0'.toNat)
  else if 'a' ≤ c ∧ c ≤ 'f' then some (c.toNat - 'a'.toNat + 10)
  else if 'A' ≤ c ∧ c ≤ 'F' then some (c.toNat - 'A'.toNat + 10)
  else none

theorem hexDigit?_hexDigit (upper : Bool) (n : Nat) (h : n < 16) :
    hexDigit? (hexDigit upper n) = some n := by
  have all : ∀ upper : Bool, ∀ n : Fin 16, hexDigit? (hexDigit upper n) = some n.val := by decide
  exact all upper ⟨n, h⟩

def hexDigits (upper : Bool) (n : Nat) : List Char :=
  (Nat.toDigits 16 n).map fun c => if upper then c.toUpper else c

/-- At least `width` digits, filled up with zeros on the left. -/
def padded (width : Nat) (digits : List Char) : String :=
  String.ofList (List.replicate (width - digits.length) '0' ++ digits)

def hex (width n : Nat) : String := padded width (hexDigits false n)

def upperHex (width n : Nat) : String := padded width (hexDigits true n)

def hexByte (b : UInt8) : List Char := [hexDigit false (b.toNat / 16), hexDigit false (b.toNat % 16)]

/-- Two digits a byte, without separators. -/
def hexBytes (bytes : List UInt8) : String := String.ofList (bytes.flatMap hexByte)

def digit? (c : Char) : Option Nat := if c.isDigit then some (c.toNat - '0'.toNat) else none

/-- Reads decimal digits and nothing else; leading zeros are fine, and some digit has to be there. -/
def digits? : List Char → Option Nat
  | [] => none
  | cs => cs.foldlM (fun n c => (digit? c).map (10 * n + ·)) 0

/-- Reads digits of a base up to sixteen, of either case, and nothing else. -/
def digitsIn? (base : Nat) : List Char → Option Nat
  | [] => none
  | cs => cs.foldlM (fun n c => ((hexDigit? c).filter (· < base)).map (base * n + ·)) 0

/-- An unsigned numeral: digits, or a plus sign and digits, of a number up to `max`. -/
def unsigned? (max : Nat) (text : String) : Option Nat :=
  let digits := match text.toList with
    | '+' :: cs => cs
    | cs => cs
  (digits? digits).filter (· ≤ max)

def word16? (text : List Char) : Option UInt16 :=
  (unsigned? 65535 (String.ofList text)).map UInt16.ofNat

end SpaceLink.Text
