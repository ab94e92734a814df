import Mathlib.Data.Nat.Bitwise
import SpaceLink.SequenceCounter

/-! # What a counter hands out

An allocation of `n` values holds those that follow the counter, each one more than the one before
it, modulo the wrap.
-/
namespace SpaceLink

/-- The `j`-th value behind `last`, the first for `j = 0`. -/
def valueAfter (wrap last : UInt64) (j : Nat) : UInt64 :=
  UInt64.ofNat ((last.toNat + 1 + j) % wrap.toNat)

theorem toNat_valueAfter (wrap last : UInt64) (hw : 0 < wrap) (j : Nat) :
    (valueAfter wrap last j).toNat = (last.toNat + 1 + j) % wrap.toNat := by
  have hmod : (last.toNat + 1 + j) % wrap.toNat < wrap.toNat :=
    Nat.mod_lt _ (UInt64.lt_iff_toNat_lt.1 hw)
  rw [valueAfter, UInt64.toNat_ofNat', Nat.mod_eq_of_lt (Nat.lt_trans hmod wrap.toNat_lt)]

theorem valueAfter_lt {wrap : UInt64} (last : UInt64) (hw : 0 < wrap) (j : Nat) :
    valueAfter wrap last j < wrap := by
  rw [UInt64.lt_iff_toNat_lt, toNat_valueAfter wrap last hw]
  exact Nat.mod_lt _ (UInt64.lt_iff_toNat_lt.1 hw)

/-- A counter below its wrap does not overflow on its way to the next value. -/
theorem valueAfter_zero {wrap last : UInt64} (h : last < wrap) :
    (last + 1) % wrap = valueAfter wrap last 0 := by
  have hlt := UInt64.lt_iff_toNat_lt.1 h
  have hwrap : wrap.toNat < 2 ^ 64 := wrap.toNat_lt
  apply UInt64.toNat_inj.1
  rw [toNat_valueAfter _ _ (UInt64.lt_of_le_of_lt UInt64.zero_le h), UInt64.toNat_mod,
    UInt64.toNat_add, UInt64.toNat_one, Nat.mod_eq_of_lt (by omega : last.toNat + 1 < 2 ^ 64)]

/-- Behind a counter that has moved by `n` come the values behind the first `n`. -/
theorem valueAfter_add {wrap last current : UInt64} {n : Nat} (hw : 0 < wrap)
    (h : current.toNat = (last.toNat + n) % wrap.toNat) (j : Nat) :
    valueAfter wrap current j = valueAfter wrap last (n + j) := by
  apply UInt64.toNat_inj.1
  rw [toNat_valueAfter _ _ hw, toNat_valueAfter _ _ hw, h, Nat.add_assoc, Nat.mod_add_mod]
  congr 1
  omega

theorem valueAfter_succ {wrap last : UInt64} (hw : 0 < wrap) (j : Nat) :
    valueAfter wrap (valueAfter wrap last 0) j = valueAfter wrap last (j + 1) := by
  rw [valueAfter_add hw (toNat_valueAfter wrap last hw 0), Nat.add_comm]

namespace Allocation

theorem collect_eq {a : Allocation} (h : a.last < a.wrap) {n : Nat} (hn : n ≤ a.remaining.toNat)
    (taken : List UInt64) :
    a.collect n taken = ((List.range n).map (valueAfter a.wrap a.last)).reverse ++ taken := by
  induction n generalizing a taken with
  | zero => rfl
  | succ n ih =>
    have hw : 0 < a.wrap := UInt64.lt_of_le_of_lt UInt64.zero_le h
    have hpos : (1 : UInt64) ≤ a.remaining := UInt64.le_iff_toNat_le.2 (by simp; omega)
    have hne : a.remaining ≠ 0 := by
      intro h0
      rw [h0] at hpos
      exact absurd hpos (by decide)
    have hrest : n ≤ (a.remaining - 1).toNat := by
      rw [UInt64.toNat_sub_of_le _ _ hpos, UInt64.toNat_one]
      omega
    have hstep := ih (a := ⟨a.wrap, valueAfter a.wrap a.last 0, a.remaining - 1⟩)
      (valueAfter_lt _ hw 0) hrest (valueAfter a.wrap a.last 0 :: taken)
    rw [collect, next?, if_neg hne]
    simp only [valueAfter_zero h]
    rw [hstep, List.range_succ_eq_map]
    simp [valueAfter_succ hw, Function.comp_def]

theorem toList_eq {a : Allocation} (h : a.last < a.wrap) :
    a.toList = (List.range a.remaining.toNat).map (valueAfter a.wrap a.last) := by
  rw [toList, take, collect_eq h (Nat.le_refl _)]
  simp

theorem collect_append (a : Allocation) (n : Nat) (front taken : List UInt64) :
    a.collect n (front ++ taken) = a.collect n front ++ taken := by
  induction n generalizing a front with
  | zero => rfl
  | succ n ih =>
    rw [collect, collect]
    split
    · rfl
    · rename_i value rest _
      exact ih rest (value :: front)

theorem one_le_remaining {a : Allocation} (h : a.remaining ≠ 0) : 1 ≤ a.remaining := by
  have hne : a.remaining.toNat ≠ 0 := fun hzero => h (UInt64.toNat_inj.1 hzero)
  exact UInt64.le_iff_toNat_le.2 (by rw [UInt64.toNat_one]; omega)

theorem toList_of_next?_eq_none {a : Allocation} (h : a.next? = none) : a.toList = [] := by
  rw [next?] at h
  split at h
  · rename_i hzero
    rw [toList, hzero]
    rfl
  · cases h

/-- Taking a value takes the first one of those that are left. -/
theorem toList_of_next? {a rest : Allocation} {value : UInt64} (h : a.next? = some (value, rest)) :
    a.toList = value :: rest.toList := by
  have hnext := h
  rw [next?] at h
  split at h
  · cases h
  · rename_i hne
    cases h
    have hpos := one_le_remaining hne
    have hcount : a.remaining.toNat = (a.remaining - 1).toNat + 1 := by
      have hle := UInt64.le_iff_toNat_le.1 hpos
      rw [UInt64.toNat_one] at hle
      rw [UInt64.toNat_sub_of_le _ _ hpos, UInt64.toNat_one]
      omega
    have happend := collect_append ⟨a.wrap, (a.last + 1) % a.wrap, a.remaining - 1⟩
      (a.remaining - 1).toNat [] [(a.last + 1) % a.wrap]
    rw [toList, take, hcount, collect, hnext]
    simp only [List.nil_append] at happend
    simp only [happend, List.reverse_append, List.reverse_singleton, List.singleton_append]
    rfl

end Allocation

namespace SequenceCounter

/-- A move onwards hands out as many values, and a move back none. -/
theorem toList_increment_toNat (c : SequenceCounter) (delta : Int64) :
    (c.increment delta).1.toList =
      (List.range delta.toInt.toNat).map (valueAfter c.wrap c.current) := by
  have hdelta := delta.toInt_lt
  have hcount : (c.increment delta).1.remaining.toNat = delta.toInt.toNat := by
    rw [increment, UInt64.toNat_ofNat', Nat.mod_eq_of_lt (by omega)]
  rw [Allocation.toList_eq (a := (c.increment delta).1) c.current_lt, hcount]
  rfl

/-- A move by a number that fits a signed word hands out as many values. -/
theorem toList_increment (c : SequenceCounter) {n : Nat} (hn : n < 2 ^ 63) :
    (c.increment (Int64.ofNat n)).1.toList =
      (List.range n).map (valueAfter c.wrap c.current) := by
  rw [toList_increment_toNat, Int64.toInt_ofNat_of_lt hn, Int.toNat_natCast]

/-- Whatever the move, the values handed out are below the wrap. -/
theorem lt_wrap_of_mem_increment (c : SequenceCounter) (delta : Int64) {value : UInt64}
    (h : value ∈ (c.increment delta).1.toList) : value < c.wrap := by
  rw [Allocation.toList_eq (a := (c.increment delta).1) c.current_lt] at h
  obtain ⟨j, -, rfl⟩ := List.mem_map.1 h
  exact valueAfter_lt _ c.wrap_pos j

/-- A remainder by the wrap is a place that a counter can stand at. -/
theorem emod_wrap_bounds (c : SequenceCounter) (n : Int) :
    0 ≤ n % (c.wrap.toNat : Int) ∧ n % (c.wrap.toNat : Int) < c.wrap.toNat := by
  have hwrap := UInt64.lt_iff_toNat_lt.1 c.wrap_pos
  rw [UInt64.toNat_zero] at hwrap
  exact ⟨Int.emod_nonneg _ (by omega), Int.emod_lt_of_pos _ (by omega)⟩

/-- After a move a counter stands at the sum, modulo the wrap. -/
theorem current_increment (c : SequenceCounter) (delta : Int64) :
    ((c.increment delta).2.current.toNat : Int) =
      (c.current.toNat + delta.toInt) % (c.wrap.toNat : Int) := by
  obtain ⟨hnonneg, hlt⟩ := c.emod_wrap_bounds (c.current.toNat + delta.toInt)
  have hwrap := c.wrap.toNat_lt
  rw [increment, startingAt, UInt64.toNat_mod, UInt64.toNat_ofNat',
    Nat.mod_eq_of_lt (by omega : _ < 2 ^ 64), Nat.mod_eq_of_lt (by omega),
    Int.toNat_of_nonneg hnonneg]

/-- After a move by a number that fits a signed word a counter stands as many values further. -/
theorem toNat_current_increment (c : SequenceCounter) {n : Nat} (hn : n < 2 ^ 63) :
    (c.increment (Int64.ofNat n)).2.current.toNat = (c.current.toNat + n) % c.wrap.toNat := by
  have hcurrent := c.current_increment (Int64.ofNat n)
  rw [Int64.toInt_ofNat_of_lt hn, ← Int.natCast_add, ← Int.natCast_mod] at hcurrent
  exact Int.ofNat_inj.1 hcurrent

/-- The values of a move are those that it passes over, from the one behind the old value on. -/
theorem toNat_toList_increment (c : SequenceCounter) (delta : Int64) :
    (c.increment delta).1.toList.map UInt64.toNat =
      (List.range' 1 delta.toInt.toNat).map
        (fun j => (c.current.toNat + j) % c.wrap.toNat) := by
  rw [c.toList_increment_toNat, List.range'_eq_map_range, List.map_map, List.map_map]
  apply List.map_congr_left
  intro j _
  simp only [Function.comp_apply, toNat_valueAfter _ _ c.wrap_pos, Nat.add_assoc]

/-- The last of them is the new value. -/
theorem getLast?_increment (c : SequenceCounter) {delta : Int64} (h : 0 < delta.toInt) :
    (c.increment delta).1.toList.getLast? = some (c.increment delta).2.current := by
  obtain ⟨n, hn⟩ : ∃ n, delta.toInt.toNat = n + 1 := ⟨delta.toInt.toNat - 1, by omega⟩
  have hmove : delta.toInt = (n : Int) + 1 := by omega
  rw [c.toList_increment_toNat, hn, List.range_succ, List.map_append, List.map_singleton,
    List.getLast?_concat, Option.some_inj]
  apply UInt64.toNat_inj.1
  have hcurrent := c.current_increment delta
  rw [hmove] at hcurrent
  rw [toNat_valueAfter _ _ c.wrap_pos, ← Int.ofNat_inj, hcurrent, Int.natCast_mod]
  congr 1
  omega

@[simp] theorem wrap_increment (c : SequenceCounter) (delta : Int64) :
    (c.increment delta).2.wrap = c.wrap := rfl

@[simp] theorem wrap_next (c : SequenceCounter) : c.next.2.wrap = c.wrap := rfl

theorem next_fst (c : SequenceCounter) : c.next.1 = valueAfter c.wrap c.current 0 :=
  valueAfter_zero c.current_lt

theorem current_next (c : SequenceCounter) : c.next.2.current = valueAfter c.wrap c.current 0 :=
  valueAfter_zero c.current_lt

end SequenceCounter
end SpaceLink
