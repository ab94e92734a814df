import SpaceLink.Bytes

/-! # Flags

A row of flags is packed into bytes, eight to a byte and the first in the lowest bit; the last byte
is filled up with clear bits. A reader takes the flags out again one by one.
-/
namespace SpaceLink.Flags

def byteOf (flags : List Bool) : UInt8 :=
  UInt8.ofNat (flags.foldr (fun flag n => 2 * n + flag.toNat) 0)

def pack : List Bool → Bytes
  | [] => []
  | a :: b :: c :: d :: e :: f :: g :: h :: rest => byteOf [a, b, c, d, e, f, g, h] :: pack rest
  | a :: rest => [byteOf (a :: rest)]

/-- A reader has taken `taken` flags, and the next one is in the first of its bytes. -/
structure Reader where
  bytes : Bytes
  taken : Nat

namespace Reader

def ofBytes (bytes : Bytes) : Reader := ⟨bytes, 0⟩

def next? (r : Reader) : Option (Bool × Reader) :=
  match r.bytes with
  | [] => none
  | b :: rest =>
    let place := r.taken % 8
    some (b.toNat.testBit place, ⟨if place = 7 then rest else b :: rest, r.taken + 1⟩)

/-- How many bytes the flags taken so far are spread over. -/
def consumed (r : Reader) : Nat := (r.taken + 7) / 8

def take? : Nat → Reader → Option (List Bool × Reader)
  | 0, r => some ([], r)
  | n + 1, r => do
    let (flag, r) ← r.next?
    let (flags, r) ← take? n r
    return (flag :: flags, r)

end Reader
end SpaceLink.Flags
