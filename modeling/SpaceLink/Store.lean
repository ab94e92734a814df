/-! # Keyed stores

A few values under keys, each key once. What an operation does shows in `get?` alone.
-/
namespace SpaceLink

structure Store (κ ν : Type) where
  entries : List (κ × ν) := []

namespace Store

variable {κ ν : Type} [DecidableEq κ]

def get? (s : Store κ ν) (key : κ) : Option ν := (s.entries.find? (·.1 = key)).map (·.2)

def erase (s : Store κ ν) (key : κ) : Store κ ν := ⟨s.entries.filter (·.1 ≠ key)⟩

def insert (s : Store κ ν) (key : κ) (value : ν) : Store κ ν :=
  ⟨(key, value) :: (s.erase key).entries⟩

def size (s : Store κ ν) : Nat := s.entries.length

theorem get?_erase_self (s : Store κ ν) (key : κ) : (s.erase key).get? key = none := by
  simp [get?, erase, List.find?_eq_none]

theorem get?_erase_of_ne (s : Store κ ν) {key other : κ} (h : other ≠ key) :
    (s.erase key).get? other = s.get? other := by
  simp only [get?, erase, List.find?_filter]
  congr 2
  funext entry
  by_cases he : entry.1 = other
  · simp [he, h]
  · simp [he]

theorem get?_insert_self (s : Store κ ν) (key : κ) (value : ν) :
    (s.insert key value).get? key = some value := by
  simp [get?, insert]

theorem get?_insert_of_ne (s : Store κ ν) {key other : κ} (value : ν) (h : other ≠ key) :
    (s.insert key value).get? other = s.get? other := by
  rw [← get?_erase_of_ne s h]
  simp [get?, insert, Ne.symm h]

end Store
end SpaceLink
