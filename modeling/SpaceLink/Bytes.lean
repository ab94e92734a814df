/-! # Byte strings

A byte string is the list of its bytes. Text is encoded as UTF-8, and numbers on the wire are
big-endian words of a fixed width.
-/
namespace SpaceLink

abbrev Bytes := List UInt8

def utf8 (text : String) : Bytes := text.toByteArray.data.toList

def ofUtf8? (bytes : Bytes) : Option String := String.fromUTF8? ⟨bytes.toArray⟩

namespace Bytes

/-- The last `width` base-256 digits of `n`, the most significant first. -/
def ofWord : Nat → Nat → Bytes
  | 0, _ => []
  | width + 1, n => ofWord width (n / 256) ++ [UInt8.ofNat n]

/-- The number whose base-256 digits are `bytes`. -/
def word (bytes : Bytes) : Nat := bytes.foldl (fun n b => 256 * n + b.toNat) 0

@[simp] theorem length_ofWord (width n : Nat) : (ofWord width n).length = width := by
  induction width generalizing n with
  | zero => rfl
  | succ w ih => simp [ofWord, ih]

end Bytes
end SpaceLink
