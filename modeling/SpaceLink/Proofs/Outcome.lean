/-! # Steps that can fail

What comes of a step is a value or an error. A value behind several steps says that each of them has
given one, and a row of steps fails with what the first that fails does.
-/
namespace SpaceLink

variable {ε α β : Type}

theorem exists_of_bind_eq_ok {x : Except ε α} {f : α → Except ε β} {b : β}
    (h : (x >>= f) = .ok b) : ∃ a, x = .ok a ∧ f a = .ok b := by
  cases x with
  | error e => cases h
  | ok a => exact ⟨a, rfl, h⟩

theorem exists_of_map_eq_ok {x : Except ε α} {f : α → β} {b : β} (h : x.map f = .ok b) :
    ∃ a, x = .ok a ∧ f a = b := by
  cases x with
  | error e => cases h
  | ok a => exact ⟨a, rfl, Except.ok.inj h⟩

theorem bind_pure_eq_error_iff {x : Except ε α} {f : α → β} {error : ε} :
    (x >>= fun a => pure (f a)) = .error error ↔ x = .error error := by
  cases x with
  | error e =>
    constructor <;> intro h <;> cases h <;> rfl
  | ok a =>
    constructor <;> intro h <;> cases h

/-- Writing a row fails with what the first member that cannot be written fails with. -/
theorem mapM_eq_error_iff {f : α → Except ε β} {xs : List α} {error : ε} :
    xs.mapM f = .error error ↔ ∃ front x back, xs = front ++ x :: back ∧
      (∀ y ∈ front, ∃ b, f y = .ok b) ∧ f x = .error error := by
  induction xs with
  | nil =>
    constructor
    · intro h
      cases h
    · rintro ⟨front, x, back, hxs, -, -⟩
      cases front <;> cases hxs
  | cons first xs ih =>
    rw [List.mapM_cons]
    cases hfirst : f first with
    | error e =>
      constructor
      · intro h
        cases h
        exact ⟨[], first, xs, rfl, List.forall_mem_nil _, hfirst⟩
      · rintro ⟨_ | ⟨y, front⟩, x, back, hxs, hfront, hx⟩
        · cases hxs
          cases hfirst.symm.trans hx
          rfl
        · cases hxs
          obtain ⟨b, hb⟩ := hfront first List.mem_cons_self
          cases hfirst.symm.trans hb
    | ok b =>
      have hlater : (do let bs ← xs.mapM f; pure (b :: bs)) = .error error ↔
          xs.mapM f = .error error := bind_pure_eq_error_iff
      refine (hlater.trans ih).trans ?_
      constructor
      · rintro ⟨front, x, back, rfl, hfront, hx⟩
        exact ⟨first :: front, x, back, rfl, List.forall_mem_cons.2 ⟨⟨b, hfirst⟩, hfront⟩, hx⟩
      · rintro ⟨_ | ⟨y, front⟩, x, back, hxs, hfront, hx⟩
        · cases hxs
          cases hfirst.symm.trans hx
        · cases hxs
          exact ⟨front, x, back, rfl, (List.forall_mem_cons.1 hfront).2, hx⟩

theorem exists_mapM_eq_ok {f : α → Except ε β} {xs : List α} (h : ∀ x ∈ xs, ∃ b, f x = .ok b) :
    ∃ bs, xs.mapM f = .ok bs := by
  cases hmap : xs.mapM f with
  | ok bs => exact ⟨bs, rfl⟩
  | error error =>
    obtain ⟨front, x, back, rfl, -, hx⟩ := mapM_eq_error_iff.1 hmap
    obtain ⟨b, hb⟩ := h x (List.mem_append_right _ List.mem_cons_self)
    cases hb.symm.trans hx

end SpaceLink
