import Mathlib.Data.List.Basic

/-! # Runs

A machine answers each input. The log of a run holds every input with its answer.
-/
namespace SpaceLink

section Run
variable {α β σ : Type} (step : σ → α → β × σ)

/-- The log of a run, and the state after it. -/
def runLog : σ → List α → List (α × β) × σ
  | s, [] => ([], s)
  | s, a :: rest =>
    let (answer, s) := step s a
    let (log, s) := runLog s rest
    ((a, answer) :: log, s)

theorem runLog_append (s : σ) (xs ys : List α) :
    runLog step s (xs ++ ys) =
      ((runLog step s xs).1 ++ (runLog step (runLog step s xs).2 ys).1,
        (runLog step (runLog step s xs).2 ys).2) := by
  induction xs generalizing s with
  | nil => rfl
  | cons x xs ih => simp only [List.cons_append, runLog, ih]

theorem runLog_concat (s : σ) (xs : List α) (a : α) :
    runLog step s (xs ++ [a]) =
      ((runLog step s xs).1 ++ [(a, (step (runLog step s xs).2 a).1)],
        (step (runLog step s xs).2 a).2) := by
  rw [runLog_append]
  rfl

/-- What every step keeps holds after a run. -/
theorem runLog_invariant {P : σ → Prop} (hstep : ∀ s a, P s → P (step s a).2) {s : σ} (h : P s)
    (xs : List α) : P (runLog step s xs).2 := by
  induction xs generalizing s with
  | nil => exact h
  | cons x xs ih => exact ih (hstep s x h)

theorem exists_of_runLog_eq_append {s : σ} {inputs : List α} {old new : List (α × β)}
    (h : (runLog step s inputs).1 = old ++ new) :
    ∃ before after : List α, inputs = before ++ after ∧ (runLog step s before).1 = old ∧
      (runLog step (runLog step s before).2 after).1 = new := by
  induction old generalizing s inputs with
  | nil => exact ⟨[], inputs, rfl, rfl, h⟩
  | cons entry old ih =>
    cases inputs with
    | nil => simp [runLog] at h
    | cons a inputs =>
      obtain ⟨hentry, hlater⟩ := List.cons.inj h
      obtain ⟨before, after, rfl, hold, hnew⟩ := ih hlater
      refine ⟨a :: before, after, rfl, ?_, hnew⟩
      rw [← hentry, ← hold]
      rfl

/-- An entry of a log is what one step gave after the run up to it. -/
theorem exists_of_runLog_eq_cons {s : σ} {inputs : List α} {old new : List (α × β)} {a : α}
    {answer : β} (h : (runLog step s inputs).1 = old ++ (a, answer) :: new) :
    ∃ before after : List α, inputs = before ++ a :: after ∧ (runLog step s before).1 = old ∧
      (step (runLog step s before).2 a).1 = answer := by
  obtain ⟨before, after, rfl, hold, hnew⟩ := exists_of_runLog_eq_append step h
  cases after with
  | nil => simp [runLog] at hnew
  | cons x after =>
    obtain ⟨hentry, -⟩ := List.cons.inj hnew
    obtain ⟨rfl, hanswer⟩ := Prod.mk.inj hentry
    exact ⟨before, after, rfl, hold, hanswer⟩

end Run
end SpaceLink
