/-! # Splitting text

Text on both sides of a separator, at its first or its last occurrence, or between all of them.
-/
namespace SpaceLink.Text

def splitFirst? (separator : List Char) : List Char → Option (List Char × List Char)
  | [] => if separator.isEmpty then some ([], []) else none
  | c :: rest =>
    if separator.isPrefixOf (c :: rest) then some ([], (c :: rest).drop separator.length)
    else (splitFirst? separator rest).map fun (before, after) => (c :: before, after)

def splitLast? (separator : Char) : List Char → Option (List Char × List Char)
  | [] => none
  | c :: rest =>
    match splitLast? separator rest with
    | some (before, after) => some (c :: before, after)
    | none => if c = separator then some ([], rest) else none

/-- What stands between the separators of a text; there is one part at least. -/
def parts (separator : Char) : List Char → List (List Char)
  | [] => [[]]
  | c :: rest =>
    if c = separator then [] :: parts separator rest
    else match parts separator rest with
      | [] => [[c]]
      | part :: more => (c :: part) :: more

def lines : List Char → List (List Char) := parts '\n'

theorem append_of_splitFirst? {separator text before after : List Char}
    (h : splitFirst? separator text = some (before, after)) :
    text = before ++ separator ++ after := by
  induction text generalizing before with
  | nil =>
    cases separator with
    | nil => simp only [splitFirst?, List.isEmpty_nil, if_true, Option.some.injEq,
        Prod.mk.injEq] at h; simp [← h.1, ← h.2]
    | cons => simp [splitFirst?] at h
  | cons c rest ih =>
    rw [splitFirst?] at h
    split at h
    · next hp =>
      simp only [Option.some.injEq, Prod.mk.injEq] at h
      obtain ⟨tail, ht⟩ := List.isPrefixOf_iff_prefix.1 hp
      rw [← h.1, ← h.2, ← ht]
      simp
    · obtain ⟨⟨b, a⟩, hs, he⟩ := Option.map_eq_some_iff.1 h
      simp only [Prod.mk.injEq] at he
      have hr : rest = b ++ separator ++ after := ih (he.2 ▸ hs)
      rw [hr, ← he.1]
      simp

theorem append_of_splitLast? {separator : Char} {text before after : List Char}
    (h : splitLast? separator text = some (before, after)) :
    text = before ++ separator :: after := by
  induction text generalizing before with
  | nil => simp [splitLast?] at h
  | cons c rest ih =>
    rw [splitLast?] at h
    split at h
    · next b a hs =>
      simp only [Option.some.injEq, Prod.mk.injEq] at h
      have hr : rest = b ++ separator :: after := ih (h.2 ▸ hs)
      rw [hr, ← h.1]
      simp
    · split at h
      · next hc =>
        simp only [Option.some.injEq, Prod.mk.injEq] at h
        simp [← h.1, ← h.2, hc]
      · simp at h

end SpaceLink.Text
