/-! # Bit fields

A field of a 64-bit word is a shift and a width. Reading it back gives what was written, and
nothing outside it changes.
-/
namespace SpaceLink

/-- A field of `width` bits, `shift` bits above the lowest bit of a 64-bit word. -/
structure BitField where
  shift : Nat
  width : Nat
  width_pos : 0 < width
  end_le : shift + width ≤ 64
  deriving DecidableEq

namespace BitField

/-- The field, unless it is empty or passes the end of the word. -/
def of? (shift width : Nat) : Option BitField :=
  if h : 0 < width ∧ shift + width ≤ 64 then some ⟨shift, width, h.1, h.2⟩ else none

def above? (f : BitField) (width : Nat) : Option BitField := of? (f.shift + f.width) width

def ones (width : Nat) : UInt64 :=
  if 64 ≤ width then UInt64.ofNat (UInt64.size - 1) else (1 <<< UInt64.ofNat width) - 1

def max (f : BitField) : UInt64 := ones f.width

def fits (f : BitField) (value : UInt64) : Bool := value &&& ~~~f.max == 0

def extract (f : BitField) (word : UInt64) : UInt64 := (word >>> UInt64.ofNat f.shift) &&& f.max

/-- Writes the low bits of `value`, as many as the field has. -/
def insertLow (f : BitField) (word value : UInt64) : UInt64 :=
  let covered := f.max <<< UInt64.ofNat f.shift
  (word &&& ~~~covered) ||| ((value <<< UInt64.ofNat f.shift) &&& covered)

def insert? (f : BitField) (word value : UInt64) : Option UInt64 :=
  if f.fits value then some (f.insertLow word value) else none

end BitField
end SpaceLink
