import Mathlib.Data.List.Nodup
import SpaceLink.Store

/-! # Writing a store again

What was written last under a key is all that counts, and all that there is.
-/
namespace SpaceLink.Store

variable {κ ν : Type} [DecidableEq κ]

@[simp] theorem erase_empty (key : κ) : ({} : Store κ ν).erase key = {} := rfl

@[simp] theorem erase_insert (s : Store κ ν) (key : κ) (value : ν) :
    (s.insert key value).erase key = s.erase key := by
  simp [insert, erase]

@[simp] theorem insert_insert (s : Store κ ν) (key : κ) (value other : ν) :
    (s.insert key value).insert key other = s.insert key other := by
  simp [insert, erase]

/-- No key stands twice. -/
def Distinct (s : Store κ ν) : Prop := (s.entries.map (·.1)).Nodup

theorem Distinct.erase {s : Store κ ν} (h : s.Distinct) (key : κ) : (s.erase key).Distinct :=
  h.sublist (List.Sublist.map _ List.filter_sublist)

theorem Distinct.insert {s : Store κ ν} (h : s.Distinct) (key : κ) (value : ν) :
    (s.insert key value).Distinct := by
  refine List.nodup_cons.2 ⟨?_, h.erase key⟩
  simp [Store.erase]

/-- Then every entry shows under its key. -/
theorem Distinct.get?_of_mem {s : Store κ ν} (h : s.Distinct) {entry : κ × ν}
    (hentry : entry ∈ s.entries) : s.get? entry.1 = some entry.2 := by
  cases hfind : s.entries.find? (·.1 = entry.1) with
  | none => simpa using List.find?_eq_none.1 hfind entry hentry
  | some found =>
    have hkey : found.1 = entry.1 := by simpa using List.find?_some hfind
    have hsame := List.inj_on_of_nodup_map h (List.mem_of_find?_eq_some hfind) hentry hkey
    rw [get?, hfind, hsame]
    rfl

end SpaceLink.Store
