import Mathlib.Data.List.TakeWhile
import SpaceLink.Proofs.Loss

/-! # Progress through a row of frames

A receiver sees places in a message: those of the frames that came through, and then those of the
whole message again for each request that is answered. How often it asks and how often it hands the
payload over can be read off that row.
-/
namespace SpaceLink

/-- The first frame came through, and so did one behind the first that was lost. -/
def LossNoticed (fates : List Bool) : Prop :=
  fates.head? = some true ∧ true ∈ fates.dropWhile id

instance (fates : List Bool) : Decidable (LossNoticed fates) :=
  inferInstanceAs (Decidable (_ ∧ _))

theorem LossNoticed.exists_lost {fates : List Bool} (h : LossNoticed fates) : false ∈ fates := by
  by_contra hnone
  have hall : ∀ fate ∈ fates, id fate = true := by
    intro fate hfate
    cases fate with
    | true => rfl
    | false => exact absurd hfate hnone
  have hmem := h.2
  rw [List.dropWhile_eq_nil_iff.2 hall] at hmem
  cases hmem

/-- The places of the frames that come through, the first frame having the place `index`. -/
def places (index : Nat) (fates : List Bool) : List Nat :=
  surviving (List.range' index fates.length) fates

@[simp] theorem places_nil (index : Nat) : places index [] = [] := rfl

@[simp] theorem places_kept (index : Nat) (fates : List Bool) :
    places index (true :: fates) = index :: places (index + 1) fates := rfl

@[simp] theorem places_lost (index : Nat) (fates : List Bool) :
    places index (false :: fates) = places (index + 1) fates := rfl

theorem le_of_mem_places {index place : Nat} {fates : List Bool} (h : place ∈ places index fates) :
    index ≤ place := by
  induction fates generalizing index with
  | nil => cases h
  | cons fate fates ih =>
    cases fate with
    | false => exact Nat.le_of_succ_le (ih h)
    | true =>
      rcases List.mem_cons.1 h with rfl | h
      · exact Nat.le_refl _
      · exact Nat.le_of_succ_le (ih h)

theorem places_eq_nil_iff {index : Nat} {fates : List Bool} :
    places index fates = [] ↔ true ∉ fates := by
  induction fates generalizing index with
  | nil => simp
  | cons fate fates ih => cases fate <;> simp [ih]

theorem places_replicate (index count : Nat) (fates : List Bool) :
    places index (List.replicate count true ++ fates) =
      List.range' index count ++ places (index + count) fates := by
  induction count generalizing index with
  | zero => simp
  | succ count ih =>
    have hindex : index + 1 + count = index + (count + 1) := by omega
    simp [List.replicate_succ, List.range'_succ, ih, hindex]

/-- Up to its first loss a row of frames comes through. -/
theorem eq_replicate_or_lost (fates : List Bool) : ∃ count : Nat,
    fates = List.replicate count true ∨
      ∃ later : List Bool, fates = List.replicate count true ++ false :: later := by
  induction fates with
  | nil => exact ⟨0, .inl rfl⟩
  | cons fate fates ih =>
    cases fate with
    | false => exact ⟨0, .inr ⟨fates, rfl⟩⟩
    | true =>
      obtain ⟨count, hrow | ⟨later, hrow⟩⟩ := ih
      · exact ⟨count + 1, .inl (by rw [hrow]; rfl)⟩
      · exact ⟨count + 1, .inr ⟨later, by rw [hrow]; rfl⟩⟩

theorem dropWhile_row (count : Nat) (fates : List Bool) :
    (List.replicate count true ++ fates).dropWhile id = fates.dropWhile id := by
  induction count with
  | zero => rfl
  | succ count ih => exact ih

/-- How far a receiver has come with a transaction: the frames that it holds in a row, and how often
it has handed the payload over and asked for the frames. -/
structure Progress where
  held : Nat := 0
  deliveries : Nat := 0
  requests : Nat := 0

/-- The frame at an index of `total` ones comes. The first one begins the row again, and one that
does not come next breaks it. -/
def Progress.hear (total : Nat) (p : Progress) (index : Nat) : Progress :=
  if index = 0 ∨ index = p.held then
    if index + 1 = total then { p with held := 0, deliveries := p.deliveries + 1 }
    else { p with held := index + 1 }
  else { p with held := 0, requests := p.requests + if p.held = 0 then 0 else 1 }

namespace Progress

def hearAll (total : Nat) (p : Progress) (row : List Nat) : Progress := row.foldl (hear total) p

variable {total index : Nat} {p : Progress}

theorem hearAll_append (xs ys : List Nat) :
    p.hearAll total (xs ++ ys) = (p.hearAll total xs).hearAll total ys := List.foldl_append

theorem hear_le (total : Nat) (p : Progress) (index : Nat) :
    p.deliveries ≤ (p.hear total index).deliveries ∧ p.requests ≤ (p.hear total index).requests ∧
      (p.hear total index).requests ≤ p.requests + 1 := by
  unfold hear
  split
  · split <;> simp
  · split <;> simp

theorem hearAll_le (total : Nat) (p : Progress) (row : List Nat) :
    p.deliveries ≤ (p.hearAll total row).deliveries ∧
      p.requests ≤ (p.hearAll total row).requests := by
  induction row generalizing p with
  | nil => exact ⟨Nat.le_refl _, Nat.le_refl _⟩
  | cons index row ih =>
    obtain ⟨hdeliveries, hrequests, -⟩ := hear_le total p index
    obtain ⟨hlater, hlater'⟩ := ih (p.hear total index)
    exact ⟨Nat.le_trans hdeliveries hlater, Nat.le_trans hrequests hlater'⟩

/-- A row that begins as it should is held, and completes the payload with its last frame. -/
theorem hearAll_row {count : Nat} (hrow : index = 0 ∨ index = p.held)
    (hle : index + (count + 1) ≤ total) :
    p.hearAll total (List.range' index (count + 1)) =
      if index + (count + 1) = total then { p with held := 0, deliveries := p.deliveries + 1 }
      else { p with held := index + (count + 1) } := by
  induction count generalizing index p with
  | zero => simp [hearAll, hear, hrow]
  | succ count ih =>
    have hfirst : p.hear total index = { p with held := index + 1 } := by
      have hmore : index + 1 ≠ total := by omega
      simp [hear, hrow, hmore]
    have hindex : index + 1 + (count + 1) = index + (count + 1 + 1) := by omega
    have hlater := ih (p := { p with held := index + 1 }) (.inr rfl) (by rw [hindex]; exact hle)
    rw [List.range'_succ]
    change (p.hear total index).hearAll total _ = _
    rw [hfirst, hlater, hindex]

/-- A whole message is handed over, whatever came before. -/
theorem hearAll_range (h : 0 < total) (p : Progress) :
    p.hearAll total (List.range total) =
      { p with held := 0, deliveries := p.deliveries + 1 } := by
  obtain ⟨count, rfl⟩ : ∃ count, total = count + 1 := ⟨total - 1, by omega⟩
  rw [List.range_eq_range', hearAll_row (.inl rfl) (Nat.le_of_eq (Nat.zero_add (count + 1))),
    if_pos (Nat.zero_add _)]

/-- Without a row nothing comes of frames behind the first. -/
theorem hearAll_unheld {row : List Nat} (hheld : p.held = 0) (h : ∀ place ∈ row, place ≠ 0) :
    p.hearAll total row = p := by
  induction row with
  | nil => rfl
  | cons place row ih =>
    obtain ⟨hplace, hrow⟩ := List.forall_mem_cons.1 h
    have hsame : p.hear total place = p := by
      cases p
      simp_all [hear]
    change (p.hear total place).hearAll total row = p
    rw [hsame, ih hrow]

/-- A broken row is asked about once. -/
theorem hearAll_broken {place : Nat} {row : List Nat} (hheld : p.held ≠ 0)
    (hplace : place ≠ 0 ∧ place ≠ p.held) (h : ∀ later ∈ row, later ≠ 0) :
    p.hearAll total (place :: row) = { p with held := 0, requests := p.requests + 1 } := by
  have hfirst : p.hear total place = { p with held := 0, requests := p.requests + 1 } := by
    simp [hear, hplace, hheld]
  change (p.hear total place).hearAll total row = _
  rw [hfirst, hearAll_unheld rfl h]

theorem hearAll_all_kept (h : 0 < total) :
    hearAll total {} (places 0 (List.replicate total true)) =
      { held := 0, deliveries := 1, requests := 0 } := by
  have hplaces := places_replicate 0 total []
  rw [List.append_nil, places_nil, List.append_nil] at hplaces
  rw [hplaces, ← List.range_eq_range', hearAll_range h]

theorem hearAll_first_lost (total : Nat) (later : List Bool) :
    hearAll total {} (places 0 (false :: later)) = {} := by
  apply hearAll_unheld rfl
  intro place hplace
  exact Nat.ne_of_gt (le_of_mem_places hplace)

/-- The row breaks at the next frame that comes through, if there is one. -/
theorem hearAll_later_lost {count : Nat} (h : count + 1 < total) (later : List Bool) :
    let p := hearAll total {} (places 0 (List.replicate (count + 1) true ++ false :: later))
    p.requests = (if true ∈ later then 1 else 0) ∧ p.deliveries = 0 := by
  have hheld : hearAll total {} (List.range' 0 (count + 1)) =
      { held := count + 1, deliveries := 0, requests := 0 } := by
    rw [hearAll_row (.inl rfl) (by omega), if_neg (by omega), Nat.zero_add]
  have hlater : ∀ place ∈ places (count + 2) later, count + 2 ≤ place :=
    fun place hplace => le_of_mem_places hplace
  rw [places_replicate, places_lost, hearAll_append, hheld, Nat.zero_add]
  cases hrest : places (count + 2) later with
  | nil =>
    rw [if_neg (places_eq_nil_iff.1 hrest)]
    exact ⟨rfl, rfl⟩
  | cons place rest =>
    have hkept : true ∈ later := by
      by_contra hlost
      rw [places_eq_nil_iff.2 hlost] at hrest
      cases hrest
    rw [hrest] at hlater
    obtain ⟨hplace, hothers⟩ := List.forall_mem_cons.1 hlater
    have hbreaks : place ≠ 0 ∧ place ≠ count + 1 := by omega
    rw [hearAll_broken (Nat.succ_ne_zero count) hbreaks fun other hother =>
      Nat.ne_of_gt (Nat.lt_of_lt_of_le (Nat.succ_pos _) (hothers other hother)), if_pos hkept]
    exact ⟨rfl, rfl⟩

/-- What comes of the frames themselves, before any are repeated. -/
theorem hearAll_places {fates : List Bool} (h : fates ≠ []) :
    let p := hearAll fates.length {} (places 0 fates)
    p.requests = (if LossNoticed fates then 1 else 0) ∧
      p.deliveries = if ∀ fate ∈ fates, fate = true then 1 else 0 := by
  obtain ⟨count, hrow | ⟨later, hrow⟩⟩ := eq_replicate_or_lost fates
  · have hall : ∀ fate ∈ fates, fate = true := by
      intro fate hfate
      rw [hrow] at hfate
      exact List.eq_of_mem_replicate hfate
    have hnone : ¬LossNoticed fates := by
      intro hnoticed
      cases hall false hnoticed.exists_lost
    have hcount : fates.length = count := by simp [hrow]
    have hpos := List.length_pos_iff.2 h
    rw [if_neg hnone, if_pos hall, hcount]
    rw [hcount] at hpos
    rw [hrow, hearAll_all_kept hpos]
    exact ⟨rfl, rfl⟩
  · have hsome : ¬∀ fate ∈ fates, fate = true := by
      intro hall
      have hlost := hall false (by rw [hrow]; simp)
      cases hlost
    rw [if_neg hsome]
    cases count with
    | zero =>
      have hnone : ¬LossNoticed fates := by simp [LossNoticed, hrow]
      have hplaces : fates = false :: later := hrow
      rw [if_neg hnone, hplaces, hearAll_first_lost]
      exact ⟨rfl, rfl⟩
    | succ count =>
      have hnoticed : LossNoticed fates ↔ true ∈ later := by
        rw [LossNoticed, hrow, dropWhile_row]
        simp [List.replicate_succ]
      have hmore : count + 1 < fates.length := by simp [hrow]
      have hlater := hearAll_later_lost hmore later
      rw [← hrow] at hlater
      simp only [hnoticed]
      exact hlater

end Progress
end SpaceLink
