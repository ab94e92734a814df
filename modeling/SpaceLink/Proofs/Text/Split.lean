import Mathlib.Data.List.Infix
import SpaceLink.Text.Split

/-! # Where a text is split

The first occurrence of a separator is the one with the shortest text in front of it, and the last
occurrence of a character has none of it behind. Each split is decided by that alone.
-/
namespace SpaceLink.Text

/-- The two sides of the first occurrence of a separator. -/
structure SplitsFirst (separator text before after : List Char) : Prop where
  append_eq : text = before ++ separator ++ after
  le : ∀ before' after', text = before' ++ separator ++ after' → before.length ≤ before'.length

variable {separator text before after : List Char} {c : Char}

theorem le_of_splitFirst? (h : splitFirst? separator text = some (before, after))
    {before' after' : List Char} (happend : text = before' ++ separator ++ after') :
    before.length ≤ before'.length := by
  induction text generalizing before before' with
  | nil =>
    obtain ⟨hbefore, -⟩ := List.append_eq_nil_iff.1 (append_of_splitFirst? h).symm
    rw [(List.append_eq_nil_iff.1 hbefore).1]
    exact Nat.zero_le _
  | cons d rest ih =>
    rw [splitFirst?] at h
    split at h
    · cases h
      exact Nat.zero_le _
    · rename_i hseparator
      obtain ⟨⟨front, back⟩, hrest, heq⟩ := Option.map_eq_some_iff.1 h
      cases heq
      cases before' with
      | nil => exact absurd (List.isPrefixOf_iff_prefix.2 ⟨after', happend.symm⟩) hseparator
      | cons d' before' =>
        have hlater : rest = before' ++ separator ++ after' := (List.cons.inj happend).2
        exact Nat.succ_le_succ (ih hrest hlater)

theorem splitFirst?_ne_none (h : text = before ++ separator ++ after) :
    splitFirst? separator text ≠ none := by
  induction text generalizing before with
  | nil =>
    obtain ⟨hbefore, -⟩ := List.append_eq_nil_iff.1 h.symm
    rw [splitFirst?, (List.append_eq_nil_iff.1 hbefore).2]
    exact Option.some_ne_none _
  | cons d rest ih =>
    rw [splitFirst?]
    split
    · exact Option.some_ne_none _
    · rename_i hseparator
      cases before with
      | nil => exact absurd (List.isPrefixOf_iff_prefix.2 ⟨after, h.symm⟩) hseparator
      | cons d' before =>
        rw [Ne, Option.map_eq_none_iff]
        exact ih (List.cons.inj h).2

theorem splitFirst?_eq_none_iff : splitFirst? separator text = none ↔ ¬separator <:+: text := by
  constructor
  · rintro h ⟨before, after, happend⟩
    exact splitFirst?_ne_none happend.symm h
  · intro h
    cases hsplit : splitFirst? separator text with
    | none => rfl
    | some sides => exact absurd ⟨sides.1, sides.2, (append_of_splitFirst? hsplit).symm⟩ h

theorem splitFirst?_eq_some_iff :
    splitFirst? separator text = some (before, after) ↔
      SplitsFirst separator text before after := by
  constructor
  · intro h
    exact ⟨append_of_splitFirst? h, fun _ _ => le_of_splitFirst? h⟩
  · rintro ⟨happend, hle⟩
    obtain ⟨⟨front, back⟩, hsplit⟩ := Option.ne_none_iff_exists'.1 (splitFirst?_ne_none happend)
    have hfront := append_of_splitFirst? hsplit
    have hlength : front.length = before.length :=
      Nat.le_antisymm (le_of_splitFirst? hsplit happend) (hle front back hfront)
    rw [hfront, List.append_assoc, List.append_assoc] at happend
    obtain ⟨rfl, hback⟩ := List.append_inj happend hlength
    rw [hsplit, List.append_cancel_left hback]

/-- A separator cannot begin in a text that does not have its first character. -/
theorem splitsFirst_of_notMem (h : c ∉ before) (tail after : List Char) :
    SplitsFirst (c :: tail) (before ++ c :: tail ++ after) before after := by
  refine ⟨rfl, ?_⟩
  intro before' after' happend
  by_contra hlt
  have hlt : before'.length < before.length := Nat.lt_of_not_le hlt
  have hplace := congrArg (·[before'.length]?) happend
  simp only [List.append_assoc] at hplace
  rw [List.getElem?_append_left hlt, List.getElem?_append_right (Nat.le_refl _), Nat.sub_self]
    at hplace
  exact h (List.mem_of_getElem? hplace)

theorem SplitsFirst.notMem (h : SplitsFirst [c] text before after) : c ∉ before := by
  intro hmem
  obtain ⟨front, back, rfl⟩ := List.append_of_mem hmem
  have hle := h.le front (back ++ [c] ++ after) (by rw [h.append_eq]; simp)
  rw [List.length_append, List.length_cons] at hle
  omega

/-- The part in front of the first of a character and the part behind it, which is empty where the
character is missing. -/
theorem splitFirst?_getD_iff :
    (splitFirst? [c] text).getD (text, []) = (before, after) ↔
      c ∉ before ∧ (text = before ∧ after = [] ∨ text = before ++ c :: after) := by
  constructor
  · intro h
    cases hsplit : splitFirst? [c] text with
    | none =>
      rw [hsplit] at h
      cases h
      have hmem := splitFirst?_eq_none_iff.1 hsplit
      rw [List.singleton_infix_iff] at hmem
      exact ⟨hmem, .inl ⟨rfl, rfl⟩⟩
    | some sides =>
      rw [hsplit] at h
      cases h
      have hfirst := splitFirst?_eq_some_iff.1 hsplit
      exact ⟨hfirst.notMem, .inr (by rw [hfirst.append_eq]; simp)⟩
  · rintro ⟨hmem, ⟨rfl, rfl⟩ | rfl⟩
    · rw [splitFirst?_eq_none_iff.2 (by rwa [List.singleton_infix_iff])]
      rfl
    · have hfirst := splitsFirst_of_notMem hmem [] after
      rw [List.append_assoc, List.singleton_append] at hfirst
      rw [splitFirst?_eq_some_iff.2 hfirst]
      rfl

theorem splitLast?_eq_none_iff : splitLast? c text = none ↔ c ∉ text := by
  induction text with
  | nil => simp [splitLast?]
  | cons d rest ih =>
    rw [splitLast?, List.mem_cons, not_or, ← ih]
    cases splitLast? c rest with
    | some sides => simp
    | none => simp [eq_comm]

theorem splitLast?_eq_some_iff :
    splitLast? c text = some (before, after) ↔ text = before ++ c :: after ∧ c ∉ after := by
  constructor
  · intro h
    refine ⟨append_of_splitLast? h, ?_⟩
    induction text generalizing before with
    | nil => cases h
    | cons d rest ih =>
      rw [splitLast?] at h
      split at h
      · rename_i hsplit
        cases h
        exact ih hsplit
      · rename_i hnone
        split at h
        · cases h
          exact splitLast?_eq_none_iff.1 hnone
        · cases h
  · rintro ⟨rfl, hmem⟩
    induction before with
    | nil =>
      rw [List.nil_append, splitLast?, splitLast?_eq_none_iff.2 hmem]
      exact if_pos rfl
    | cons d before ih => rw [List.cons_append, splitLast?, ih]

end SpaceLink.Text
