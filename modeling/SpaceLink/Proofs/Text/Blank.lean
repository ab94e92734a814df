import Mathlib.Data.List.TakeWhile
import SpaceLink.Text.Blank

/-! # Text between blanks

Trimming takes the blanks at both ends away and nothing else, and there is only one way to do so.
-/
namespace SpaceLink.Text

/-- What stands between the blanks at the two ends of a text. -/
structure Trims (text middle : List Char) : Prop where
  exists_blanks : ∃ before after, text = before ++ middle ++ after ∧
    (∀ c ∈ before, isBlank c = true) ∧ ∀ c ∈ after, isBlank c = true
  head : ∀ c, middle.head? = some c → isBlank c = false
  last : ∀ c, middle.getLast? = some c → isBlank c = false

variable {text middle : List Char}

theorem trimStart_of_head (h : ∀ c, text.head? = some c → isBlank c = false) :
    trimStart text = text := by
  cases text with
  | nil => rfl
  | cons c text =>
    rw [trimStart, List.dropWhile_cons, h c rfl]
    rfl

theorem head_trimStart {c : Char} (h : (trimStart text).head? = some c) : isBlank c = false := by
  have hhead := List.head?_dropWhile_not isBlank text
  rw [← trimStart, h] at hhead
  exact hhead

/-- A text is the blanks at its front and what is left behind them. -/
theorem exists_append_trimStart (text : List Char) :
    ∃ before, text = before ++ trimStart text ∧ ∀ c ∈ before, isBlank c = true :=
  ⟨text.takeWhile isBlank, List.takeWhile_append_dropWhile.symm,
    fun _ hc => List.mem_takeWhile_imp hc⟩

theorem Trims.eq_trim (h : Trims text middle) : middle = trim text := by
  obtain ⟨⟨before, after, rfl, hbefore, hafter⟩, hhead, hlast⟩ := h
  have hfront : trimStart (before ++ middle ++ after) = trimStart (middle ++ after) := by
    rw [List.append_assoc, trimStart, List.dropWhile_append_of_pos hbefore]
    rfl
  rw [trim, hfront]
  cases middle with
  | nil =>
    have hnil : trimStart after = [] := List.dropWhile_eq_nil_iff.2 hafter
    rw [List.nil_append, hnil]
    rfl
  | cons c middle =>
    have hkept : trimStart (c :: middle ++ after) = c :: middle ++ after :=
      trimStart_of_head fun d hd => hhead d hd
    have hback : trimStart (after.reverse ++ (c :: middle).reverse) =
        trimStart (c :: middle).reverse := by
      rw [trimStart, List.dropWhile_append_of_pos fun d hd => hafter d (List.mem_reverse.1 hd)]
      rfl
    rw [hkept, List.reverse_append, hback, trimStart_of_head, List.reverse_reverse]
    intro d hd
    rw [List.head?_reverse] at hd
    exact hlast d hd

theorem trims_trim (text : List Char) : Trims text (trim text) := by
  obtain ⟨before, hbefore, hblank⟩ := exists_append_trimStart text
  obtain ⟨after, hafter, hblank'⟩ := exists_append_trimStart (trimStart text).reverse
  have hmiddle : trimStart text = trim text ++ after.reverse := by
    have hreverse := congrArg List.reverse hafter
    rwa [List.reverse_reverse, List.reverse_append] at hreverse
  refine ⟨⟨before, after.reverse, ?_, hblank, fun c hc => hblank' c (List.mem_reverse.1 hc)⟩,
    ?_, ?_⟩
  · rw [List.append_assoc, ← hmiddle]
    exact hbefore
  · intro c hc
    have hhead : (trimStart text).head? = some c := by
      rw [hmiddle, List.head?_append, hc]
      rfl
    exact head_trimStart hhead
  · intro c hc
    rw [trim, List.getLast?_reverse] at hc
    exact head_trimStart hc

end SpaceLink.Text
