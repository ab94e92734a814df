/-! # Sequence counters

A counter of identifiers that wraps around. It stands at the value handed out last, always below
its modulus, and a fresh counter hands out zero first.
-/
namespace SpaceLink

structure SequenceCounter where
  wrap : UInt64
  current : UInt64
  current_lt : current < wrap

/-- Values reserved by one move of a counter, the next one being `last + 1`. They are fixed by the
move, whatever happens to the counter before they are taken. -/
structure Allocation where
  wrap : UInt64
  last : UInt64
  remaining : UInt64

namespace Allocation

def next? (a : Allocation) : Option (UInt64 × Allocation) :=
  if a.remaining = 0 then none
  else
    let value := (a.last + 1) % a.wrap
    some (value, ⟨a.wrap, value, a.remaining - 1⟩)

/-- Up to `n` further values, put in front of `taken` in reverse. -/
def collect (a : Allocation) : Nat → List UInt64 → List UInt64
  | 0, taken => taken
  | n + 1, taken =>
    match a.next? with
    | none => taken
    | some (value, rest) => collect rest n (value :: taken)

/-- The next `n` values, or as many as remain. -/
def take (n : Nat) (a : Allocation) : List UInt64 := (a.collect n []).reverse

def toList (a : Allocation) : List UInt64 := a.take a.remaining.toNat

end Allocation

namespace SequenceCounter

/-- Stands at `current`, reduced below the modulus. -/
def startingAt (wrap current : UInt64) (h : 0 < wrap) : SequenceCounter :=
  ⟨wrap, current % wrap, UInt64.mod_lt _ h⟩

theorem pred_lt {wrap : UInt64} (h : 0 < wrap) : wrap - 1 < wrap := by
  have : 0 < wrap.toNat := UInt64.lt_iff_toNat_lt.1 h
  have hone : (1 : UInt64) ≤ wrap := UInt64.le_iff_toNat_le.2 (by simp; omega)
  rw [UInt64.lt_iff_toNat_lt, UInt64.toNat_sub_of_le _ _ hone]
  simp
  omega

def fresh (wrap : UInt64) (h : 0 < wrap) : SequenceCounter := ⟨wrap, wrap - 1, pred_lt h⟩

/-- No counter wraps at zero. -/
def fresh? (wrap : UInt64) : Option SequenceCounter :=
  if h : 0 < wrap then some (fresh wrap h) else none

def startingAt? (wrap current : UInt64) : Option SequenceCounter :=
  if h : 0 < wrap then some (startingAt wrap current h) else none

theorem wrap_pos (c : SequenceCounter) : 0 < c.wrap :=
  UInt64.lt_of_le_of_lt (UInt64.zero_le) c.current_lt

/-- Moves the counter by `delta`, back or forth. The values moved over are those above the old
one, up to and with the new one; a move back hands out none. -/
def increment (c : SequenceCounter) (delta : Int64) : Allocation × SequenceCounter :=
  let moved := ((c.current.toNat : Int) + delta.toInt) % (c.wrap.toNat : Int)
  (⟨c.wrap, c.current, UInt64.ofNat delta.toInt.toNat⟩,
    startingAt c.wrap (UInt64.ofNat moved.toNat) c.wrap_pos)

def next (c : SequenceCounter) : UInt64 × SequenceCounter :=
  let value := (c.current + 1) % c.wrap
  (value, ⟨c.wrap, value, UInt64.mod_lt _ c.wrap_pos⟩)

end SequenceCounter
end SpaceLink
