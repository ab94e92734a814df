import Mathlib.Data.List.Basic

/-! # Losses

A row of things is sent, and a mark for each of them says whether it comes through. What comes
through keeps its order.
-/
namespace SpaceLink

section Surviving
variable {α : Type}

def surviving (sent : List α) (kept : List Bool) : List α :=
  ((sent.zip kept).filter (·.2)).map (·.1)

@[simp] theorem surviving_nil (kept : List Bool) : surviving ([] : List α) kept = [] := rfl

@[simp] theorem surviving_kept (x : α) (sent : List α) (kept : List Bool) :
    surviving (x :: sent) (true :: kept) = x :: surviving sent kept := rfl

@[simp] theorem surviving_lost (x : α) (sent : List α) (kept : List Bool) :
    surviving (x :: sent) (false :: kept) = surviving sent kept := rfl

end Surviving

/-- With `gap` losses right before the marks, there are never `round` losses in a row. -/
def NeverLoses (round gap : Nat) (kept : List Bool) : Prop :=
  ¬List.replicate round false <:+: List.replicate gap false ++ kept

namespace NeverLoses

variable {round gap : Nat} {later : List Bool}

theorem gap_lt (h : NeverLoses round gap later) : gap < round := by
  by_contra hle
  have hrow : List.replicate gap false = List.replicate round false ++
      List.replicate (gap - round) false := by
    rw [← List.replicate_add, Nat.add_sub_of_le (Nat.le_of_not_lt hle)]
  refine h ?_
  rw [hrow, List.append_assoc]
  exact (List.prefix_append _ _).isInfix

theorem lost (h : NeverLoses round gap (false :: later)) : NeverLoses round (gap + 1) later := by
  have hrow : List.replicate (gap + 1) false ++ later =
      List.replicate gap false ++ false :: later := by
    rw [List.replicate_add, List.append_assoc]
    rfl
  rw [NeverLoses, hrow]
  exact h

theorem survived (h : NeverLoses round gap (true :: later)) : NeverLoses round 0 later := by
  intro hlost
  refine h (hlost.trans ?_)
  exact ((List.suffix_cons true later).trans (List.suffix_append _ _)).isInfix

end NeverLoses
end SpaceLink
