import Mathlib.Data.List.Induction
import Mathlib.Data.List.Infix

/-! # Rows at the end of a trace

A receiver that joins what comes in a row has one row under way at most: the one that its trace ends
in. The next element begins a row, carries that one on, or leaves none.
-/
namespace SpaceLink

/-- What makes a row, by its first element and the later ones. Up to each of its elements a row is a
row too, and what carries one on does not begin one. -/
structure RowKind (α : Type) where
  IsRow : α → List α → Prop
  isRow_init : ∀ {first later x}, IsRow first (later ++ [x]) → IsRow first later
  not_begins : ∀ {first later x}, IsRow first (later ++ [x]) → ¬IsRow x []

namespace RowKind

variable {α ν : Type} {kind : RowKind α} {xs later : List α} {first x : α}

/-- The row stands at the end of the trace. -/
structure EndsIn (kind : RowKind α) (xs : List α) (first : α) (later : List α) : Prop where
  suffix : first :: later <:+ xs
  isRow : kind.IsRow first later

theorem not_endsIn_nil (kind : RowKind α) (first : α) (later : List α) :
    ¬kind.EndsIn [] first later := by
  intro h
  simpa using h.suffix

theorem endsIn_begin (h : kind.IsRow x []) : kind.EndsIn (xs ++ [x]) x [] :=
  ⟨List.suffix_append xs [x], h⟩

theorem EndsIn.carryOn (h : kind.EndsIn xs first later) (hrow : kind.IsRow first (later ++ [x])) :
    kind.EndsIn (xs ++ [x]) first (later ++ [x]) := by
  refine ⟨?_, hrow⟩
  rw [← List.cons_append, List.suffix_append_self_iff]
  exact h.suffix

/-- The last element of a trace begins the row in which the trace ends, or carries it on. -/
theorem EndsIn.concat_cases (h : kind.EndsIn (xs ++ [x]) first later) :
    first = x ∧ later = [] ∧ kind.IsRow x [] ∨
      ∃ before, later = before ++ [x] ∧ kind.EndsIn xs first before ∧
        kind.IsRow first (before ++ [x]) := by
  obtain ⟨hsuffix, hrow⟩ := h
  cases later using List.reverseRecOn with
  | nil =>
    obtain ⟨done, hdone⟩ := hsuffix
    obtain ⟨-, hlast⟩ := List.append_inj' hdone rfl
    obtain rfl : first = x := by simpa using hlast
    exact .inl ⟨rfl, rfl, hrow⟩
  | append_singleton before y =>
    obtain ⟨done, hdone⟩ := hsuffix
    rw [← List.cons_append, ← List.append_assoc] at hdone
    obtain ⟨hbefore, hlast⟩ := List.append_inj' hdone rfl
    obtain rfl : y = x := by simpa using hlast
    exact .inr ⟨before, rfl, ⟨⟨done, hbefore⟩, kind.isRow_init hrow⟩, hrow⟩

/-- A trace ends in one row at most. -/
theorem EndsIn.unique (h : kind.EndsIn xs first later) {first' : α} {later' : List α}
    (h' : kind.EndsIn xs first' later') : first = first' ∧ later = later' := by
  induction xs using List.reverseRecOn generalizing first later first' later' with
  | nil => exact absurd h (kind.not_endsIn_nil _ _)
  | append_singleton xs x ih =>
    rcases h.concat_cases with ⟨rfl, rfl, hbegins⟩ | ⟨before, rfl, hends, hrow⟩ <;>
      rcases h'.concat_cases with ⟨rfl, rfl, hbegins'⟩ | ⟨before', rfl, hends', hrow'⟩
    · exact ⟨rfl, rfl⟩
    · exact absurd hbegins (kind.not_begins hrow')
    · exact absurd hbegins' (kind.not_begins hrow)
    · obtain ⟨rfl, rfl⟩ := ih hends hends'
      exact ⟨rfl, rfl⟩

/-- What is kept while the trace ends in a row, and only then. -/
inductive Keeps (kind : RowKind α) (Holds : α → List α → ν → Prop) (xs : List α) :
    Option ν → Prop
  | nothing : (∀ first later, ¬kind.EndsIn xs first later) → Keeps kind Holds xs none
  | row {first : α} {later : List α} {v : ν} :
      kind.EndsIn xs first later → Holds first later v → Keeps kind Holds xs (some v)

variable {Holds : α → List α → ν → Prop} {slot : Option ν}

theorem keeps_nil : kind.Keeps Holds [] none := .nothing kind.not_endsIn_nil

theorem keeps_begin {v : ν} (hrow : kind.IsRow x []) (hholds : Holds x [] v) :
    kind.Keeps Holds (xs ++ [x]) (some v) := .row (endsIn_begin hrow) hholds

theorem EndsIn.keeps {v : ν} (h : kind.EndsIn xs first later)
    (hrow : kind.IsRow first (later ++ [x])) (hholds : Holds first (later ++ [x]) v) :
    kind.Keeps Holds (xs ++ [x]) (some v) := .row (h.carryOn hrow) hholds

/-- An element that neither begins a row nor carries one on leaves nothing to keep. -/
theorem keeps_none (hbegins : ¬kind.IsRow x [])
    (hrow : ∀ first later, kind.EndsIn xs first later → ¬kind.IsRow first (later ++ [x])) :
    kind.Keeps Holds (xs ++ [x]) none := by
  refine .nothing fun first later h => ?_
  rcases h.concat_cases with ⟨-, -, hbegin⟩ | ⟨before, -, hends, hcarry⟩
  · exact hbegins hbegin
  · exact hrow first before hends hcarry

theorem Keeps.exists_holds (h : kind.Keeps Holds xs slot) (hends : kind.EndsIn xs first later) :
    ∃ v, slot = some v ∧ Holds first later v := by
  cases h with
  | nothing hnone => exact absurd hends (hnone _ _)
  | row hends' hholds =>
    obtain ⟨rfl, rfl⟩ := hends'.unique hends
    exact ⟨_, rfl, hholds⟩

theorem Keeps.isSome_iff (h : kind.Keeps Holds xs slot) :
    slot.isSome = true ↔ ∃ first later, kind.EndsIn xs first later := by
  cases h with
  | nothing hnone => simpa using hnone
  | row hends hholds => simpa using ⟨_, _, hends⟩

end RowKind
end SpaceLink
