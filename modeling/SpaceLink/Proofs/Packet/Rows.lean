import Mathlib.Data.List.Chain
import SpaceLink.Proofs.Packet.Loss
import SpaceLink.Proofs.Row
import SpaceLink.Proofs.Run

/-! # What a desegmenter makes of a trace

The packets of one qualifier and application decide alone what is kept for them. A message is in
progress while they end in a first segment and continuations with consecutive counts, within the
bound; it is handed over with the last segment that comes next.
-/
namespace SpaceLink.Desegmenter

/-- The second packet has the count behind that of the first. -/
def Follows (p q : Packet) : Prop :=
  q.header.sequenceCount.toNat = (p.header.sequenceCount.toNat + 1) % 16384

instance : DecidableRel Follows := fun _ _ => inferInstanceAs (Decidable (_ = _))

theorem follows_iff {p q : Packet} :
    Follows p q ↔ q.header.sequenceCount = nextCount p.header.sequenceCount := by
  rw [Follows, ← UInt16.toNat_inj, toNat_nextCount]

/-- A first segment, and continuations in their order, that stay within the bound. -/
structure IsRun (bound : Nat) (first : Packet) (later : List Packet) : Prop where
  opens : first.header.sequenceFlags = .first
  continues : ∀ p ∈ later, p.header.sequenceFlags = .continuation
  counts : (first :: later).IsChain Follows
  bounded : (bodies (first :: later)).length ≤ bound

section IsRun
variable {bound : Nat} {first p : Packet} {later : List Packet}

theorem isChain_concat :
    (first :: later ++ [p]).IsChain Follows ↔
      (first :: later).IsChain Follows ∧ Follows (later.getLastD first) p := by
  rw [List.isChain_append, List.getLast?_cons, ← List.getLastD_eq_getLast?]
  simp

theorem bodies_concat : bodies (first :: later ++ [p]) = bodies (first :: later) ++ p.body := by
  simp [bodies]

theorem isRun_nil :
    IsRun bound p [] ↔ p.header.sequenceFlags = .first ∧ p.body.length ≤ bound := by
  constructor
  · intro h
    exact ⟨h.opens, by simpa [bodies] using h.bounded⟩
  · rintro ⟨hopens, hbounded⟩
    exact ⟨hopens, by simp, by simp, by simpa [bodies] using hbounded⟩

theorem isRun_concat :
    IsRun bound first (later ++ [p]) ↔
      IsRun bound first later ∧ p.header.sequenceFlags = .continuation ∧
        Follows (later.getLastD first) p ∧
        (bodies (first :: later)).length + p.body.length ≤ bound := by
  rw [← List.length_append, ← bodies_concat]
  constructor
  · intro h
    obtain ⟨hcounts, hfollows⟩ := isChain_concat.1 h.counts
    have hbounded := h.bounded
    rw [← List.cons_append, bodies_concat, List.length_append] at hbounded
    exact ⟨⟨h.opens, fun q hq => h.continues q (List.mem_append_left _ hq), hcounts, by omega⟩,
      h.continues p (by simp), hfollows, h.bounded⟩
  · rintro ⟨hrun, hflags, hfollows, hbounded⟩
    refine ⟨hrun.opens, ?_, isChain_concat.2 ⟨hrun.counts, hfollows⟩, hbounded⟩
    intro q hq
    rcases List.mem_append.1 hq with hq | hq
    · exact hrun.continues q hq
    · rw [List.mem_singleton.1 hq]
      exact hflags

/-- The packet is the last segment of a whole message within the bound. -/
structure Closes (bound : Nat) (first : Packet) (later : List Packet) (p : Packet) : Prop where
  opens : first.header.sequenceFlags = .first
  continues : ∀ q ∈ later, q.header.sequenceFlags = .continuation
  closes : p.header.sequenceFlags = .last
  counts : (first :: later ++ [p]).IsChain Follows
  bounded : (bodies (first :: later ++ [p])).length ≤ bound

theorem closes_iff :
    Closes bound first later p ↔
      IsRun bound first later ∧ p.header.sequenceFlags = .last ∧
        Follows (later.getLastD first) p ∧
        (bodies (first :: later)).length + p.body.length ≤ bound := by
  rw [← List.length_append, ← bodies_concat]
  constructor
  · intro h
    obtain ⟨hcounts, hfollows⟩ := isChain_concat.1 h.counts
    have hbounded := h.bounded
    rw [bodies_concat, List.length_append] at hbounded
    exact ⟨⟨h.opens, h.continues, hcounts, by omega⟩, h.closes, hfollows, h.bounded⟩
  · rintro ⟨hrun, hflags, hfollows, hbounded⟩
    exact ⟨hrun.opens, hrun.continues, hflags, isChain_concat.2 ⟨hrun.counts, hfollows⟩,
      hbounded⟩

end IsRun

def segments (bound : Nat) : RowKind Packet where
  IsRow := IsRun bound
  isRow_init h := (isRun_concat.1 h).1
  not_begins h hbegins := by
    have hflags := (isRun_concat.1 h).2.1
    rw [(isRun_nil.1 hbegins).1] at hflags
    cases hflags

/-- The message in progress is that of the row. -/
structure Covers (first : Packet) (later : List Packet) (m : PartialMessage) : Prop where
  first_eq : m.first = first
  bytes_eq : m.body.bytes = bodies (first :: later)
  count_eq : m.lastCount = (later.getLastD first).header.sequenceCount

variable {bound : Nat} {d : Desegmenter} {p : Packet}

theorem Covers.size_eq {first : Packet} {later : List Packet} {m : PartialMessage}
    (h : Covers first later m) : m.body.size = (bodies (first :: later)).length := by
  rw [Gathered.size_eq_length, h.bytes_eq]

theorem Covers.follows_iff {first : Packet} {later : List Packet} {m : PartialMessage}
    (h : Covers first later m) :
    Follows (later.getLastD first) p ↔ p.header.sequenceCount = nextCount m.lastCount := by
  rw [Desegmenter.follows_iff, h.count_eq]

theorem Covers.append {first : Packet} {later : List Packet} {m : PartialMessage}
    (h : Covers first later m) : Covers first (later ++ [p])
      { m with body := m.body.append p.body, lastCount := p.header.sequenceCount } := by
  refine ⟨h.first_eq, ?_, by simp⟩
  rw [Gathered.bytes_append, h.bytes_eq, ← List.cons_append, bodies_concat]

/-- All that a packet can do to what is kept under its key. -/
inductive Turn (bound : Nat) (p : Packet) :
    Option PartialMessage → Except PacketError (Option Packet) → Option PartialMessage → Prop
  | whole {slot : Option PartialMessage} :
      p.header.sequenceFlags = .unsegmented → p.body.length ≤ bound →
      Turn bound p slot (.ok (some p)) none
  | started {slot : Option PartialMessage} :
      p.header.sequenceFlags = .first → p.body.length ≤ bound →
      Turn bound p slot (.ok none) (some ⟨p, .of p.body, p.header.sequenceCount⟩)
  | tooLong {slot : Option PartialMessage} :
      p.header.sequenceFlags = .unsegmented ∨ p.header.sequenceFlags = .first →
      bound < p.body.length →
      Turn bound p slot (.error (.messageTooLarge p.body.length bound)) none
  | extended {m : PartialMessage} :
      p.header.sequenceFlags = .continuation →
      p.header.sequenceCount = nextCount m.lastCount → m.body.size + p.body.length ≤ bound →
      Turn bound p (some m) (.ok none)
        (some { m with body := m.body.append p.body, lastCount := p.header.sequenceCount })
  | completed {m : PartialMessage} :
      p.header.sequenceFlags = .last →
      p.header.sequenceCount = nextCount m.lastCount → m.body.size + p.body.length ≤ bound →
      Turn bound p (some m) (.ok (some (joined m.first (m.body.bytes ++ p.body)))) none
  | stray :
      p.header.sequenceFlags = .continuation ∨ p.header.sequenceFlags = .last →
      Turn bound p none (.error (.sequenceAnomaly p.header.apid none p.header.sequenceCount)) none
  | broken {m : PartialMessage} :
      p.header.sequenceFlags = .continuation ∨ p.header.sequenceFlags = .last →
      p.header.sequenceCount ≠ nextCount m.lastCount →
      Turn bound p (some m) (.error (.sequenceAnomaly p.header.apid (some (nextCount m.lastCount))
        p.header.sequenceCount)) none
  | overgrown {m : PartialMessage} :
      p.header.sequenceFlags = .continuation ∨ p.header.sequenceFlags = .last →
      p.header.sequenceCount = nextCount m.lastCount → bound < m.body.size + p.body.length →
      Turn bound p (some m) (.error (.messageTooLarge (m.body.size + p.body.length) bound)) none

/-- A later segment ends its row, or is the next one of the message in progress. -/
theorem extend_turn (d : Desegmenter) (slot : Option PartialMessage)
    (hflags : p.header.sequenceFlags = .continuation ∨ p.header.sequenceFlags = .last) :
    (∃ error, d.extend p slot = .error error ∧
      Turn d.maxMessageSize p slot (.error error) none) ∨
    ∃ m, slot = some m ∧ p.header.sequenceCount = nextCount m.lastCount ∧
      m.body.size + p.body.length ≤ d.maxMessageSize ∧
      d.extend p slot =
        .ok { m with body := m.body.append p.body, lastCount := p.header.sequenceCount } := by
  cases slot with
  | none => exact .inl ⟨_, rfl, .stray hflags⟩
  | some m =>
    by_cases hcount : p.header.sequenceCount = nextCount m.lastCount
    · by_cases hsize : d.maxMessageSize < m.body.size + p.body.length
      · refine .inl ⟨_, ?_, .overgrown hflags hcount hsize⟩
        simp only [extend, hcount, checkSize, if_pos hsize, ne_eq, not_true_eq_false, if_false]
        rfl
      · have hle := Nat.le_of_not_lt hsize
        exact .inr ⟨m, rfl, hcount, hle, extend_of_next hcount hle⟩
    · refine .inl ⟨_, ?_, .broken hflags hcount⟩
      simp only [extend, if_pos hcount]
      rfl

/-- A packet takes its turn under its key. -/
theorem accept_turn (d : Desegmenter) (p : Packet) :
    Turn d.maxMessageSize p (d.inProgress.get? (keyOf p)) (d.accept p).1
      ((d.accept p).2.inProgress.get? (keyOf p)) := by
  unfold accept
  cases hflags : p.header.sequenceFlags with
  | unsegmented =>
    unfold checkSize
    by_cases hsize : d.maxMessageSize < p.body.length
    · simp only [if_pos hsize, Except.map, Store.get?_erase_self]
      exact .tooLong (.inl hflags) hsize
    · simp only [if_neg hsize, Except.map, Store.get?_erase_self]
      exact .whole hflags (Nat.le_of_not_lt hsize)
  | first =>
    unfold checkSize
    by_cases hsize : d.maxMessageSize < p.body.length
    · simp only [if_pos hsize, Store.get?_erase_self]
      exact .tooLong (.inr hflags) hsize
    · simp only [if_neg hsize, Store.get?_insert_self]
      exact .started hflags (Nat.le_of_not_lt hsize)
  | continuation =>
    rcases d.extend_turn (d.inProgress.get? (keyOf p)) (.inl hflags) with
      ⟨error, herror, hturn⟩ | ⟨m, hget, hcount, hsize, hextend⟩
    · simp only [herror, Store.get?_erase_self]
      exact hturn
    · simp only [hextend, Store.get?_insert_self]
      rw [hget]
      exact .extended hflags hcount hsize
  | last =>
    rcases d.extend_turn (d.inProgress.get? (keyOf p)) (.inr hflags) with
      ⟨error, herror, hturn⟩ | ⟨m, hget, hcount, hsize, hextend⟩
    · simp only [herror, Store.get?_erase_self]
      exact hturn
    · simp only [hextend, Store.get?_erase_self]
      rw [hget]
      have hturn := Turn.completed (m := m) hflags hcount hsize
      simpa [finish, joined] using hturn

/-- A packet changes nothing but what is kept under its key. -/
theorem accept_frame (d : Desegmenter) (p : Packet) :
    (d.accept p).2 = d.forget (keyOf p) ∨ ∃ m, (d.accept p).2 = d.keep (keyOf p) m := by
  unfold accept
  cases p.header.sequenceFlags with
  | unsegmented => exact .inl rfl
  | first =>
    cases d.checkSize p.body.length with
    | error error => exact .inl rfl
    | ok => exact .inr ⟨_, rfl⟩
  | continuation =>
    cases hextend : d.extend p (d.inProgress.get? (keyOf p)) with
    | error error =>
      simp only [hextend]
      exact .inl rfl
    | ok m =>
      simp only [hextend]
      exact .inr ⟨m, rfl⟩
  | last =>
    cases hextend : d.extend p (d.inProgress.get? (keyOf p)) with
    | error error =>
      simp only [hextend]
      exact .inl rfl
    | ok m =>
      simp only [hextend]
      exact .inl rfl

theorem maxMessageSize_accept (d : Desegmenter) (p : Packet) :
    (d.accept p).2.maxMessageSize = d.maxMessageSize := by
  rcases d.accept_frame p with h | ⟨m, h⟩ <;> rw [h] <;> rfl

theorem get?_accept_of_ne (d : Desegmenter) {p : Packet} {key : ApplicationKey}
    (h : key ≠ keyOf p) :
    (d.accept p).2.inProgress.get? key = d.inProgress.get? key := by
  rcases d.accept_frame p with hnext | ⟨m, hnext⟩
  · rw [hnext]
    exact Store.get?_erase_of_ne _ h
  · rw [hnext]
    exact Store.get?_insert_of_ne _ _ h

/-- What a packet gets and leaves follows from what is kept under its key. -/
theorem accept_congr {d e : Desegmenter} {p : Packet} (hbound : d.maxMessageSize = e.maxMessageSize)
    (hslot : d.inProgress.get? (keyOf p) = e.inProgress.get? (keyOf p)) :
    (d.accept p).1 = (e.accept p).1 ∧
      (d.accept p).2.inProgress.get? (keyOf p) = (e.accept p).2.inProgress.get? (keyOf p) := by
  have hsize : ∀ size, d.checkSize size = e.checkSize size := by
    intro size
    simp only [checkSize, hbound]
  have hextend : d.extend p (d.inProgress.get? (keyOf p)) =
      e.extend p (e.inProgress.get? (keyOf p)) := by
    rw [hslot]
    cases e.inProgress.get? (keyOf p) with
    | none => rfl
    | some m => simp only [extend, hsize]
  unfold accept
  cases p.header.sequenceFlags with
  | unsegmented => simp only [hsize, Store.get?_erase_self, and_self]
  | first =>
    simp only [hsize]
    cases e.checkSize p.body.length with
    | error error => simp only [Store.get?_erase_self, and_self]
    | ok => simp only [Store.get?_insert_self, and_self]
  | continuation =>
    simp only [hextend]
    cases e.extend p (e.inProgress.get? (keyOf p)) with
    | error error => simp only [Store.get?_erase_self, and_self]
    | ok m => simp only [Store.get?_insert_self, and_self]
  | last =>
    simp only [hextend]
    cases e.extend p (e.inProgress.get? (keyOf p)) with
    | error error => simp only [Store.get?_erase_self, and_self]
    | ok m => simp only [Store.get?_erase_self, and_self]

section Turn
variable {seen : List Packet} {slot slot' : Option PartialMessage}
  {answer : Except PacketError (Option Packet)}

/-- A message is in progress while the packets seen end in a row, and is that of the row. -/
abbrev Shows (bound : Nat) (seen : List Packet) (slot : Option PartialMessage) : Prop :=
  (segments bound).Keeps Covers seen slot

theorem shows_none (hfirst : p.header.sequenceFlags = .first → bound < p.body.length)
    (hnext : p.header.sequenceFlags = .continuation → ∀ first later,
      (segments bound).EndsIn seen first later → Follows (later.getLastD first) p →
      bound < (bodies (first :: later)).length + p.body.length) :
    Shows bound (seen ++ [p]) none := by
  refine RowKind.keeps_none ?_ ?_
  · intro hbegins
    obtain ⟨hflags, hsize⟩ := isRun_nil.1 hbegins
    exact Nat.not_lt.2 hsize (hfirst hflags)
  · intro first later hends hrow
    obtain ⟨-, hflags, hfollows, hsize⟩ := isRun_concat.1 hrow
    exact Nat.not_lt.2 hsize (hnext hflags first later hends hfollows)

/-- A later segment ends its row unless it comes next in it, within the bound. -/
theorem shows_none_of_later
    (hflags : p.header.sequenceFlags = .continuation ∨ p.header.sequenceFlags = .last)
    (hnext : ∀ first later, (segments bound).EndsIn seen first later →
      Follows (later.getLastD first) p → bound < (bodies (first :: later)).length + p.body.length) :
    Shows bound (seen ++ [p]) none := by
  refine shows_none (fun hfirst => ?_) fun _ => hnext
  rw [hfirst] at hflags
  simp at hflags

theorem Turn.shows (h : Turn bound p slot answer slot') (hshows : Shows bound seen slot) :
    Shows bound (seen ++ [p]) slot' := by
  cases h with
  | whole hflags _ => exact shows_none (by simp [hflags]) (by simp [hflags])
  | started hflags hsize =>
    exact RowKind.keeps_begin (isRun_nil.2 ⟨hflags, hsize⟩) ⟨rfl, by simp [bodies], rfl⟩
  | tooLong hflags hsize =>
    refine shows_none (fun _ => hsize) fun hcontinuation => ?_
    rw [hcontinuation] at hflags
    simp at hflags
  | extended hflags hcount hsize =>
    cases hshows with
    | row hends hcovers =>
      rw [hcovers.size_eq] at hsize
      have hrow := isRun_concat.2 ⟨hends.isRow, hflags, hcovers.follows_iff.2 hcount, hsize⟩
      exact hends.keeps hrow hcovers.append
  | completed hflags _ _ => exact shows_none (by simp [hflags]) (by simp [hflags])
  | stray hflags =>
    cases hshows with
    | nothing hnone => exact shows_none_of_later hflags fun _ _ hends => absurd hends (hnone _ _)
  | broken hflags hcount =>
    refine shows_none_of_later hflags fun first later hends hfollows => ?_
    obtain ⟨m, hm, hcovers⟩ := hshows.exists_holds hends
    cases hm
    exact absurd (hcovers.follows_iff.1 hfollows) hcount
  | overgrown hflags _ hsize =>
    refine shows_none_of_later hflags fun first later hends _ => ?_
    obtain ⟨m, hm, hcovers⟩ := hshows.exists_holds hends
    cases hm
    rwa [hcovers.size_eq] at hsize

/-- A message is handed over when it comes in one packet, or with the last segment of a row. -/
theorem Turn.message_iff (h : Turn bound p slot answer slot') (hshows : Shows bound seen slot)
    (message : Packet) :
    answer = .ok (some message) ↔
      p.header.sequenceFlags = .unsegmented ∧ p.body.length ≤ bound ∧ message = p ∨
        ∃ first later, first :: later <:+ seen ∧ Closes bound first later p ∧
          message = joined first (bodies (first :: later ++ [p])) := by
  constructor
  · rintro rfl
    cases h with
    | whole hflags hsize => exact .inl ⟨hflags, hsize, rfl⟩
    | completed hflags hcount hsize =>
      cases hshows with
      | @row first later _ hends hcovers =>
        rw [hcovers.size_eq] at hsize
        refine .inr ⟨first, later, hends.suffix, ?_, ?_⟩
        · exact closes_iff.2 ⟨hends.isRow, hflags, hcovers.follows_iff.2 hcount, hsize⟩
        · rw [hcovers.first_eq, hcovers.bytes_eq, bodies_concat]
  · rintro (⟨hflags, hsize, rfl⟩ | ⟨first, later, hsuffix, hcloses, rfl⟩)
    · cases h with
      | whole _ _ => rfl
      | tooLong _ hlarge => exact absurd hsize (Nat.not_le.2 hlarge)
      | _ => simp_all
    · obtain ⟨hrun, hflags, hfollows, hsize⟩ := closes_iff.1 hcloses
      obtain ⟨m, rfl, hcovers⟩ := hshows.exists_holds ⟨hsuffix, hrun⟩
      rw [← hcovers.size_eq] at hsize
      cases h with
      | completed _ _ _ => rw [bodies_concat, hcovers.first_eq, hcovers.bytes_eq]
      | broken _ hcount => exact absurd (hcovers.follows_iff.1 hfollows) hcount
      | overgrown _ _ hlarge => exact absurd hsize (Nat.not_le.2 hlarge)
      | _ => simp_all

theorem Turn.of_error {error : PacketError} (h : Turn bound p slot (.error error) slot') :
    slot' = none ∧
      ((∃ expected, error = .sequenceAnomaly p.header.apid expected p.header.sequenceCount) ∨
        ∃ size, bound < size ∧ error = .messageTooLarge size bound) := by
  cases h with
  | tooLong _ hlarge => exact ⟨rfl, .inr ⟨_, hlarge, rfl⟩⟩
  | stray _ => exact ⟨rfl, .inl ⟨_, rfl⟩⟩
  | broken _ _ => exact ⟨rfl, .inl ⟨_, rfl⟩⟩
  | overgrown _ _ hlarge => exact ⟨rfl, .inr ⟨_, hlarge, rfl⟩⟩

theorem length_le_of_shows {m : PartialMessage} (h : Shows bound seen (some m)) :
    m.body.bytes.length ≤ bound := by
  cases h with
  | row hends hcovers =>
    rw [hcovers.bytes_eq]
    exact hends.isRow.bounded

end Turn

def isOf (key : ApplicationKey) (p : Packet) : Bool := keyOf p = key

@[simp]
theorem isOf_keyOf (p : Packet) : isOf (keyOf p) p = true := decide_eq_true rfl

theorem isOf_of_ne {key : ApplicationKey} {p : Packet} (h : keyOf p ≠ key) :
    isOf key p = false :=
  decide_eq_false h

theorem maxMessageSize_run (bound : Nat) (trace : List Packet) :
    (runLog accept (of bound) trace).2.maxMessageSize = bound := by
  induction trace using List.reverseRecOn with
  | nil => rfl
  | append_singleton trace p ih =>
    rw [runLog_concat]
    exact (maxMessageSize_accept _ p).trans ih

/-- One more packet leaves under each key the row in which the packets of that key end. -/
theorem shows_accept {key : ApplicationKey} {trace : List Packet} (hbound : d.maxMessageSize = bound)
    (h : Shows bound (trace.filter (isOf key)) (d.inProgress.get? key)) (p : Packet) :
    Shows bound ((trace ++ [p]).filter (isOf key)) ((d.accept p).2.inProgress.get? key) := by
  subst hbound
  rw [List.filter_append]
  by_cases hkey : keyOf p = key
  · subst hkey
    simp only [List.filter_cons, isOf_keyOf, if_true, List.filter_nil]
    exact (d.accept_turn p).shows h
  · simp only [List.filter_cons, isOf_of_ne hkey, Bool.false_eq_true, if_false, List.filter_nil,
      List.append_nil, d.get?_accept_of_ne (Ne.symm hkey)]
    exact h

theorem shows_run (bound : Nat) (key : ApplicationKey) (trace : List Packet) :
    Shows bound (trace.filter (isOf key))
      ((runLog accept (of bound) trace).2.inProgress.get? key) := by
  induction trace using List.reverseRecOn with
  | nil => exact RowKind.keeps_nil
  | append_singleton trace p ih =>
    rw [runLog_concat]
    exact shows_accept (maxMessageSize_run bound trace) ih p

/-- The packets of other keys can be left out. -/
theorem run_own (bound : Nat) (key : ApplicationKey) (trace : List Packet) :
    (runLog accept (of bound) trace).2.inProgress.get? key =
        (runLog accept (of bound) (trace.filter (isOf key))).2.inProgress.get? key ∧
      (runLog accept (of bound) trace).1.filter (fun entry => isOf key entry.1) =
        (runLog accept (of bound) (trace.filter (isOf key))).1 := by
  induction trace using List.reverseRecOn with
  | nil => exact ⟨rfl, rfl⟩
  | append_singleton trace p ih =>
    obtain ⟨hslot, hlog⟩ := ih
    rw [runLog_concat, List.filter_append, List.filter_append, hlog]
    by_cases hkey : keyOf p = key
    · subst hkey
      have hbound := (maxMessageSize_run bound trace).trans
        (maxMessageSize_run bound (trace.filter (isOf (keyOf p)))).symm
      obtain ⟨hanswer, hnext⟩ := accept_congr hbound hslot
      simp only [List.filter_cons, isOf_keyOf, if_true, List.filter_nil, runLog_concat]
      exact ⟨hnext, by rw [hanswer]⟩
    · simp only [List.filter_cons, isOf_of_ne hkey, Bool.false_eq_true, if_false, List.filter_nil,
        List.append_nil, get?_accept_of_ne _ (Ne.symm hkey)]
      exact ⟨hslot, trivial⟩

/-- What a fresh desegmenter makes of any trace, and of the packet behind it. A message is handed
over whole in one packet, or with the last segment of a row in which the packets of its key end. An
error leaves nothing in progress under its key, nothing kept is longer than the bound, and a key gets
and keeps what it would get and keep alone. -/
theorem joins_counted_rows (bound : Nat) (trace : List Packet) (p : Packet) :
    let run := runLog accept (of bound)
    let before := (run trace).2
    let answer := (before.accept p).1
    let after := (before.accept p).2
    let seen := trace.filter (isOf (keyOf p))
    (∀ message, answer = .ok (some message) ↔
      p.header.sequenceFlags = .unsegmented ∧ p.body.length ≤ bound ∧ message = p ∨
        ∃ first later, first :: later <:+ seen ∧ Closes bound first later p ∧
          message = joined first (bodies (first :: later ++ [p]))) ∧
    (∀ error, answer = .error error →
      ((∃ expected, error = .sequenceAnomaly p.header.apid expected p.header.sequenceCount) ∨
        ∃ size, bound < size ∧ error = .messageTooLarge size bound) ∧
      after.inProgress.get? (keyOf p) = none) ∧
    (∀ key, key ≠ keyOf p → after.inProgress.get? key = before.inProgress.get? key) ∧
    (∀ key m, after.inProgress.get? key = some m → m.body.bytes.length ≤ bound) ∧
    ∀ key, before.inProgress.get? key = (run (trace.filter (isOf key))).2.inProgress.get? key ∧
      (run trace).1.filter (fun entry => isOf key entry.1) =
        (run (trace.filter (isOf key))).1 := by
  intro run before answer after seen
  have hbound : before.maxMessageSize = bound := maxMessageSize_run bound trace
  have hshows : ∀ key, Shows bound (trace.filter (isOf key)) (before.inProgress.get? key) :=
    fun key => shows_run bound key trace
  have hturn := before.accept_turn p
  rw [hbound] at hturn
  refine ⟨hturn.message_iff (hshows (keyOf p)), fun error herror => ?_,
    fun key hkey => get?_accept_of_ne before hkey, fun key m hget => ?_,
    fun key => run_own bound key trace⟩
  · simp only [answer] at herror
    rw [herror] at hturn
    obtain ⟨hslot, hkind⟩ := hturn.of_error
    exact ⟨hkind, hslot⟩
  · have hafter := shows_accept hbound (hshows key) p
    simp only [after] at hget
    rw [hget] at hafter
    exact length_le_of_shows hafter

/-- Counts wrap within a row and packets of another application come between. A last segment of one
byte more is refused, and nothing is kept of the message. -/
theorem joins_wrapping_rows :
    let segment (apid count : UInt16) (flags : SequenceFlags) (body : Bytes) : Packet :=
      { header := { apid, sequenceFlags := flags, sequenceCount := count }, body }
    let trace : List Packet :=
      [segment 1 16382 .first [1, 2], segment 2 7 .first [9], segment 1 16383 .continuation [3],
        segment 2 9 .last [9]]
    let before := (runLog accept (of 4) trace).2
    (before.accept (segment 1 0 .last [4])).1 =
        .ok (some (segment 1 16382 .unsegmented [1, 2, 3, 4])) ∧
      (before.accept (segment 1 0 .last [4, 5])).1 = .error (.messageTooLarge 5 4) ∧
      (before.accept (segment 1 0 .last [4, 5])).2.inProgress.get? (0, 1) = none := by
  intro segment trace before
  obtain ⟨hmessage, -⟩ := joins_counted_rows 4 trace (segment 1 0 .last [4])
  obtain ⟨-, herror, -⟩ := joins_counted_rows 4 trace (segment 1 0 .last [4, 5])
  have hlarge : (before.accept (segment 1 0 .last [4, 5])).1 = .error (.messageTooLarge 5 4) := by
    decide
  refine ⟨(hmessage _).2 (.inr ⟨segment 1 16382 .first [1, 2],
    [segment 1 16383 .continuation [3]], ⟨[], by decide⟩, ?_, rfl⟩), hlarge, (herror _ hlarge).2⟩
  exact ⟨rfl, by decide, rfl, by decide, by decide⟩

end SpaceLink.Desegmenter
