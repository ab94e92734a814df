import Mathlib.Algebra.Order.Floor.Div
import Mathlib.Data.List.Basic
import SpaceLink.Pieces

/-! # What cutting gives

A body is the pieces it is cut into, one after the other. Piece `i` is the slice of the body behind
the first `i` pieces of full size, and only an empty body has an empty piece.
-/
namespace SpaceLink.Pieces

theorem count_eq_ceilDiv (size length : Nat) : count size length = max 1 (length ⌈/⌉ size) :=
  rfl

theorem count_pos (size length : Nat) : 0 < count size length :=
  Nat.lt_of_lt_of_le Nat.one_pos (Nat.le_max_left _ _)

theorem le_count_mul {size : Nat} (h : 0 < size) (length : Nat) :
    length ≤ count size length * size := by
  have hdiv : (length + size - 1) / size * size + (length + size - 1) % size = length + size - 1 :=
    Nat.div_add_mod' _ _
  have hmod := Nat.mod_lt (length + size - 1) h
  have hle : (length + size - 1) / size * size ≤ count size length * size :=
    Nat.mul_le_mul_right _ (Nat.le_max_right _ _)
  omega

/-- The pieces before the last do not hold the whole body. -/
theorem mul_lt_of_lt_count {size length i : Nat} (h : 0 < length) (hi : i < count size length) :
    i * size < length := by
  rcases Nat.eq_zero_or_pos i with rfl | hpos
  · simpa using h
  have hdiv : i < (length + size - 1) / size := by
    rw [count] at hi
    omega
  have hmul : (i + 1) * size ≤ (length + size - 1) / size * size :=
    Nat.mul_le_mul_right size hdiv
  have hself := Nat.div_mul_le_self (length + size - 1) size
  rw [Nat.succ_mul] at hmul
  omega

theorem collect_eq_append (size more : Nat) (body : Bytes) (done : List Bytes) :
    collect size more body done = done.reverse ++ collect size more body [] := by
  induction more generalizing body done with
  | zero => simp [collect]
  | succ more ih =>
    rw [collect, collect, ih, ih _ [body.take size]]
    simp

theorem flatten_collect (size more : Nat) (body : Bytes) :
    (collect size more body []).flatten = body := by
  induction more generalizing body with
  | zero => simp [collect]
  | succ more ih =>
    rw [collect, collect_eq_append, List.flatten_append, ih]
    simp

theorem collect_eq_map {size more : Nat} {body : Bytes} (h : body.length ≤ (more + 1) * size) :
    collect size more body [] =
      (List.range (more + 1)).map fun i => (body.drop (i * size)).take size := by
  induction more generalizing body with
  | zero =>
    have htake : body.take size = body := List.take_of_length_le (by simpa using h)
    simp [collect, htake]
  | succ more ih =>
    have hrest : (body.drop size).length ≤ (more + 1) * size := by
      rw [List.length_drop, Nat.sub_le_iff_le_add, ← Nat.succ_mul]
      exact h
    rw [collect, collect_eq_append, ih hrest, List.range_succ_eq_map (n := more + 1)]
    simp [Nat.succ_mul, Nat.add_comm]

theorem flatten_cut (size : Nat) (body : Bytes) : (cut size body).flatten = body :=
  flatten_collect _ _ _

theorem cut_eq_map {size : Nat} (h : 0 < size) (body : Bytes) :
    cut size body =
      (List.range (count size body.length)).map fun i => (body.drop (i * size)).take size := by
  have hpos := count_pos size body.length
  have hcount : count size body.length - 1 + 1 = count size body.length := by omega
  have hle : body.length ≤ (count size body.length - 1 + 1) * size := by
    rw [hcount]
    exact le_count_mul h _
  rw [cut, collect_eq_map hle, hcount]

theorem length_cut {size : Nat} (h : 0 < size) (body : Bytes) :
    (cut size body).length = count size body.length := by
  rw [cut_eq_map h]
  simp

theorem length_le_of_mem_cut {size : Nat} (h : 0 < size) {body piece : Bytes}
    (hp : piece ∈ cut size body) : piece.length ≤ min size body.length := by
  rw [cut_eq_map h] at hp
  obtain ⟨i, -, rfl⟩ := List.mem_map.1 hp
  rw [List.length_take, List.length_drop]
  omega

theorem ne_nil_of_mem_cut {size : Nat} (h : 0 < size) {body piece : Bytes} (hb : body ≠ [])
    (hp : piece ∈ cut size body) : piece ≠ [] := by
  rw [cut_eq_map h] at hp
  obtain ⟨i, hi, rfl⟩ := List.mem_map.1 hp
  have hlt := mul_lt_of_lt_count (List.length_pos_iff.2 hb) (List.mem_range.1 hi)
  rw [← List.length_pos_iff, List.length_take, List.length_drop]
  omega

section Place
variable {size i : Nat} {body piece : Bytes}

theorem length_of_getElem?_cut (h : 0 < size) (hp : (cut size body)[i]? = some piece) :
    piece.length = min size (body.length - i * size) := by
  rw [cut_eq_map h, List.getElem?_map, Option.map_eq_some_iff] at hp
  obtain ⟨j, hj, rfl⟩ := hp
  obtain ⟨-, rfl⟩ := List.getElem?_eq_some_iff.1 hj
  rw [List.getElem_range, List.length_take, List.length_drop]

/-- Every piece but the last has the full size. -/
theorem length_of_succ_lt_count (h : 0 < size) (hp : (cut size body)[i]? = some piece)
    (hi : i + 1 < count size body.length) : piece.length = size := by
  have hbody : 0 < body.length := by
    by_contra hempty
    rw [Nat.eq_zero_of_not_pos hempty, count, Nat.zero_add, Nat.div_eq_of_lt (by omega)] at hi
    omega
  have hnext := mul_lt_of_lt_count hbody hi
  rw [Nat.succ_mul] at hnext
  rw [length_of_getElem?_cut h hp]
  omega

theorem length_of_succ_eq_count (h : 0 < size) (hp : (cut size body)[i]? = some piece)
    (hi : i + 1 = count size body.length) : piece.length = body.length - i * size := by
  have hall := le_count_mul h body.length
  rw [← hi, Nat.succ_mul] at hall
  rw [length_of_getElem?_cut h hp]
  omega

end Place
end SpaceLink.Pieces
