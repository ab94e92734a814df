import Mathlib.Data.List.Dedup
import Mathlib.Data.List.DropRight
import SpaceLink.Link.ResendCache

/-! # What a resend cache recalls

Of all that has been put into it, a cache holds the last insert under each key, and of these the
newest ones that it has room for.
-/
namespace SpaceLink

/-- Number and node, by which a node asks for a transaction. -/
def SentTransaction.key (sent : SentTransaction) : UInt32 × UInt32 := (sent.transaction, sent.dst)

namespace ResendCache

/-- The insert is the last one under its key, and behind it are so many other keys. -/
def LastUnderKey (inserts : List SentTransaction) (sent : SentTransaction) (newer : Nat) : Prop :=
  ∃ before later : List SentTransaction, inserts = before ++ sent :: later ∧
    (∀ e ∈ later, e.key ≠ sent.key) ∧ (later.map SentTransaction.key).dedup.length = newer

/-- What a cache recalls of all these inserts. -/
structure Recalls (cache : ResendCache) (inserts : List SentTransaction) : Prop where
  length_le : cache.entries.length ≤ cache.depth
  nodup_keys : (cache.entries.map SentTransaction.key).Nodup
  find?_last : ∀ {sent : SentTransaction} {newer : Nat}, LastUnderKey inserts sent newer →
    cache.find? sent.transaction sent.dst = if newer < cache.depth then some sent.frames else none
  find?_absent : ∀ {transaction dst : UInt32}, (∀ e ∈ inserts, e.key ≠ (transaction, dst)) →
    cache.find? transaction dst = none

/-- The last insert under each key, in the order of these. -/
def latest : List SentTransaction → List SentTransaction
  | [] => []
  | first :: rest =>
    if first.key ∈ rest.map SentTransaction.key then latest rest else first :: latest rest

variable {first sent : SentTransaction} {rest inserts entries : List SentTransaction}

theorem latest_cons_of_mem (h : first.key ∈ rest.map SentTransaction.key) :
    latest (first :: rest) = latest rest := if_pos h

theorem latest_cons_of_notMem (h : first.key ∉ rest.map SentTransaction.key) :
    latest (first :: rest) = first :: latest rest := if_neg h

theorem map_key_latest (inserts : List SentTransaction) :
    (latest inserts).map SentTransaction.key = (inserts.map SentTransaction.key).dedup := by
  induction inserts with
  | nil => rfl
  | cons first rest ih =>
    by_cases hagain : first.key ∈ rest.map SentTransaction.key
    · rw [latest_cons_of_mem hagain, List.map_cons, List.dedup_cons_of_mem hagain, ih]
    · rw [latest_cons_of_notMem hagain, List.map_cons, List.map_cons,
        List.dedup_cons_of_notMem hagain, ih]

theorem latest_suffix (before later : List SentTransaction) :
    latest later <:+ latest (before ++ later) := by
  induction before with
  | nil => exact List.suffix_rfl
  | cons first rest ih =>
    rw [List.cons_append, latest]
    split
    · exact ih
    · exact ih.trans (List.suffix_cons _ _)

/-- A new insert takes its key from an older one. -/
theorem latest_concat (inserts : List SentTransaction) (sent : SentTransaction) :
    latest (inserts ++ [sent]) = (latest inserts).filter (·.key ≠ sent.key) ++ [sent] := by
  induction inserts with
  | nil => rfl
  | cons first rest ih =>
    have hadded : first.key ∈ (rest ++ [sent]).map SentTransaction.key ↔
        first.key ∈ rest.map SentTransaction.key ∨ first.key = sent.key := by simp
    rw [List.cons_append]
    by_cases hagain : first.key ∈ rest.map SentTransaction.key
    · rw [latest_cons_of_mem hagain, latest_cons_of_mem (hadded.2 (.inl hagain)), ih]
    · rw [latest_cons_of_notMem hagain]
      by_cases hkey : first.key = sent.key
      · rw [latest_cons_of_mem (hadded.2 (.inr hkey)), ih, List.filter_cons_of_neg (by simpa)]
      · rw [latest_cons_of_notMem (mt hadded.1 (not_or.2 ⟨hagain, hkey⟩)), ih,
          List.filter_cons_of_pos (by simpa), List.cons_append]

/-- The last insert under its key stands before as many as there are other keys behind it. -/
theorem LastUnderKey.latest_eq {inserts : List SentTransaction} {sent : SentTransaction}
    {newer : Nat} (h : LastUnderKey inserts sent newer) :
    ∃ older behind : List SentTransaction, latest inserts = older ++ sent :: behind ∧
      behind.length = newer := by
  obtain ⟨before, later, rfl, hother, rfl⟩ := h
  obtain ⟨older, holder⟩ := latest_suffix before (sent :: later)
  have hlast : latest (sent :: later) = sent :: latest later := by
    refine latest_cons_of_notMem fun hagain => ?_
    obtain ⟨e, he, hkey⟩ := List.mem_map.1 hagain
    exact hother e he hkey
  refine ⟨older, latest later, ?_, ?_⟩
  · rw [← holder, hlast]
  · rw [← map_key_latest, List.length_map]

theorem mem_of_mem_latest {e : SentTransaction} (h : e ∈ latest inserts) : e ∈ inserts := by
  induction inserts with
  | nil => exact h
  | cons first rest ih =>
    rw [latest] at h
    split at h
    · exact List.mem_cons_of_mem _ (ih h)
    · rcases List.mem_cons.1 h with rfl | hrest
      · exact List.mem_cons_self
      · exact List.mem_cons_of_mem _ (ih hrest)

theorem length_rtake {α : Type} (all : List α) (count : Nat) :
    (all.rtake count).length = min count all.length := by
  rw [List.rtake, List.length_drop]
  omega

theorem rtake_append {α : Type} (older newer : List α) (count : Nat) :
    (older ++ newer).rtake count = older.rtake (count - newer.length) ++ newer.rtake count := by
  simp [List.rtake_eq_reverse_take_reverse, List.take_append]

theorem rtake_append_of_le {α : Type} {older newer : List α} {count : Nat}
    (h : count ≤ newer.length) : (older ++ newer).rtake count = newer.rtake count := by
  rw [rtake_append, Nat.sub_eq_zero_of_le h, List.rtake_zero, List.nil_append]

theorem mem_rtake {older behind : List SentTransaction} {count : Nat} (h : behind.length < count) :
    sent ∈ (older ++ sent :: behind).rtake count := by
  have hwhole : (sent :: behind).length - count = 0 := Nat.sub_eq_zero_of_le h
  rw [rtake_append]
  refine List.mem_append_right _ ?_
  rw [List.rtake, hwhole]
  exact List.mem_cons_self

theorem nodup_keys_rtake (h : (entries.map SentTransaction.key).Nodup) (count : Nat) :
    ((entries.rtake count).map SentTransaction.key).Nodup :=
  h.sublist ((List.drop_sublist _ entries).map _)

/-- At most one entry has the key. -/
theorem length_le_filter (h : (entries.map SentTransaction.key).Nodup) (key : UInt32 × UInt32) :
    entries.length ≤ (entries.filter (·.key ≠ key)).length + 1 := by
  induction entries with
  | nil => exact Nat.zero_le _
  | cons first rest ih =>
    obtain ⟨hnew, hrest⟩ := List.nodup_cons.1 h
    by_cases hkey : first.key = key
    · have hall : rest.filter (·.key ≠ key) = rest := by
        refine List.filter_eq_self.2 fun e he => ?_
        have hne : e.key ≠ key := fun he' => hnew (List.mem_map.2 ⟨e, he, he'.trans hkey.symm⟩)
        simpa using hne
      rw [List.filter_cons_of_neg (by simpa), hall, List.length_cons]
    · rw [List.filter_cons_of_pos (by simpa), List.length_cons, List.length_cons]
      exact Nat.succ_le_succ (ih hrest)

/-- At most one entry moves up when a key is taken out, so the newest of those that are left are among
the newest and one more. -/
theorem rtake_filter (h : (entries.map SentTransaction.key).Nodup) (key : UInt32 × UInt32)
    (room : Nat) : (entries.filter (·.key ≠ key)).rtake room =
      ((entries.rtake (room + 1)).filter (·.key ≠ key)).rtake room := by
  obtain ⟨older, holder⟩ : ∃ older, older ++ entries.rtake (room + 1) = entries :=
    ⟨_, List.take_append_drop _ entries⟩
  have hlength := length_rtake entries (room + 1)
  nth_rewrite 1 [← holder]
  rw [List.filter_append]
  by_cases hshort : entries.length ≤ room + 1
  · have hsum := congrArg List.length holder
    rw [List.length_append, hlength, Nat.min_eq_right hshort] at hsum
    have hnone : older = [] := List.eq_nil_of_length_eq_zero (by omega)
    rw [hnone, List.filter_nil, List.nil_append]
  · have hleast := length_le_filter (nodup_keys_rtake h (room + 1)) key
    rw [hlength] at hleast
    exact rtake_append_of_le (by omega)

theorem tail_filter_rtake (h : (entries.map SentTransaction.key).Nodup) {key : UInt32 × UInt32}
    {room : Nat} {others : List SentTransaction}
    (hothers : (entries.rtake (room + 1)).filter (·.key ≠ key) = others) :
    (if others.length = room + 1 then others.tail else others) =
      (entries.filter (·.key ≠ key)).rtake room := by
  have hmost : others.length ≤ room + 1 := by
    have hlength := length_rtake entries (room + 1)
    rw [← hothers]
    exact (List.length_filter_le _ _).trans (hlength ▸ Nat.min_le_left _ _)
  rw [rtake_filter h, hothers, List.rtake]
  split
  · rw [‹others.length = room + 1›, Nat.add_sub_cancel_left, List.drop_one]
  · rw [Nat.sub_eq_zero_of_le (by omega), List.drop_zero]

theorem nodup_keys_latest (inserts : List SentTransaction) :
    ((latest inserts).map SentTransaction.key).Nodup := by
  rw [map_key_latest]
  exact List.nodup_dedup _

/-- A cache holds the newest of the latest inserts. -/
theorem foldl_insert (depth : Nat) (inserts : List SentTransaction) :
    inserts.foldl insert { depth := depth } = ⟨depth, (latest inserts).rtake depth⟩ := by
  induction inserts using List.reverseRecOn with
  | nil => simp [latest]
  | append_singleton inserts sent ih =>
    rw [List.foldl_concat, ih, latest_concat, insert]
    cases depth with
    | zero => simp
    | succ room =>
      rw [List.rtake_concat_succ, ← tail_filter_rtake (nodup_keys_latest inserts) rfl]
      simp [SentTransaction.key]

theorem find?_of_forall_ne {cache : ResendCache} {transaction dst : UInt32}
    (h : ∀ e ∈ cache.entries, e.key ≠ (transaction, dst)) : cache.find? transaction dst = none := by
  rw [find?, List.find?_eq_none.2, Option.map_none]
  intro e he
  simpa [SentTransaction.key] using h e he

theorem find?_of_mem {cache : ResendCache} (h : (cache.entries.map SentTransaction.key).Nodup)
    (hmem : sent ∈ cache.entries) :
    cache.find? sent.transaction sent.dst = some sent.frames := by
  rw [find?]
  cases hfind : cache.entries.find? fun e =>
      e.transaction = sent.transaction && e.dst = sent.dst with
  | none => simpa using List.find?_eq_none.1 hfind sent hmem
  | some found =>
    have hkey : found.key = sent.key := by
      simpa [SentTransaction.key] using List.find?_some hfind
    rw [List.inj_on_of_nodup_map h (List.mem_of_find?_eq_some hfind) hmem hkey, Option.map_some]

/-- Whatever is put into a cache, it recalls the last insert under each of the newest keys that it
has room for. -/
theorem recalls_foldl_insert (depth : Nat) (inserts : List SentTransaction) :
    (inserts.foldl insert { depth := depth }).Recalls inserts := by
  rw [foldl_insert]
  have hnodup := nodup_keys_latest inserts
  have hkeys := nodup_keys_rtake hnodup depth
  refine ⟨?_, hkeys, ?_, ?_⟩
  · exact (length_rtake (latest inserts) depth).trans_le (Nat.min_le_left _ _)
  · intro sent newer hlast
    obtain ⟨older, behind, hlatest, rfl⟩ := hlast.latest_eq
    by_cases hroom : behind.length < depth
    · refine (find?_of_mem hkeys ?_).trans (if_pos hroom).symm
      rw [hlatest]
      exact mem_rtake hroom
    · refine (find?_of_forall_ne fun e he => ?_).trans (if_neg hroom).symm
      rw [hlatest, List.map_append, List.map_cons] at hnodup
      rw [hlatest, List.append_cons, rtake_append_of_le (Nat.le_of_not_lt hroom)] at he
      intro hkey
      refine (List.nodup_cons.1 hnodup.of_append_right).1 (List.mem_map.2 ⟨e, ?_, hkey⟩)
      exact List.mem_of_mem_drop he
  · intro transaction dst habsent
    exact find?_of_forall_ne fun e he =>
      habsent e (mem_of_mem_latest (List.mem_of_mem_drop he))

end ResendCache
end SpaceLink
