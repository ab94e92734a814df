import SpaceLink.Proofs.Can.Reassembler
import SpaceLink.Proofs.Row
import SpaceLink.Proofs.Run

/-! # What a reassembler makes of a trace

Of all the frames that come, those that count and concern one key decide what is kept under it. A
buffer is open just as long as they end in a first frame and the frames that count down from it; a
payload is handed over with the frame that brings the count to zero.
-/
namespace SpaceLink

def FrameType.isReserved : FrameType → Bool
  | .reserved _ => true
  | _ => false

/-- A first frame, and the frames that count down from it and leave more to come. -/
structure IsCountdown (first : Fragment) (later : List Fragment) : Prop where
  opens : first.identifier.frameType = .start
  room : later.length < first.identifier.remain.toNat
  counts : ∀ i f, later[i]? = some f → f.identifier.frameType = .continuation ∧
    f.identifier.remain.toNat + i + 1 = first.identifier.remain.toNat

/-- The frame comes next behind the row, and closes it if it is the last one. -/
def IsNext (first : Fragment) (later : List Fragment) (f : Fragment) : Prop :=
  f.identifier.remain.toNat + later.length + 1 = first.identifier.remain.toNat ∧
    (f.identifier.frameType = .last ↔ f.identifier.remain = 0)

section Countdown
variable {first f : Fragment} {later : List Fragment}

theorem isCountdown_nil :
    IsCountdown f [] ↔ f.identifier.frameType = .start ∧ f.identifier.remain ≠ 0 := by
  rw [ne_eq, ← UInt32.toNat_inj, UInt32.toNat_zero]
  constructor
  · intro h
    have hroom := h.room
    rw [List.length_nil] at hroom
    exact ⟨h.opens, by omega⟩
  · rintro ⟨hopens, hremain⟩
    exact ⟨hopens, by rw [List.length_nil]; omega, by simp⟩

theorem isCountdown_concat :
    IsCountdown first (later ++ [f]) ↔
      IsCountdown first later ∧ f.identifier.frameType = .continuation ∧
        f.identifier.remain ≠ 0 ∧
        f.identifier.remain.toNat + later.length + 1 = first.identifier.remain.toNat := by
  rw [ne_eq, ← UInt32.toNat_inj, UInt32.toNat_zero]
  constructor
  · intro h
    obtain ⟨htype, hremain⟩ := h.counts later.length f (by simp)
    have hroom := h.room
    rw [List.length_append, List.length_singleton] at hroom
    refine ⟨⟨h.opens, by omega, fun i g hg => h.counts i g ?_⟩, htype, by omega, hremain⟩
    obtain ⟨hi, -⟩ := List.getElem?_eq_some_iff.1 hg
    rw [List.getElem?_append_left hi, hg]
  · rintro ⟨hrow, htype, hzero, hremain⟩
    refine ⟨hrow.opens, ?_, ?_⟩
    · rw [List.length_append, List.length_singleton]
      omega
    · intro i g hg
      rcases Nat.lt_trichotomy i later.length with hlt | rfl | hgt
      · rw [List.getElem?_append_left hlt] at hg
        exact hrow.counts i g hg
      · obtain rfl : f = g := by simpa using hg
        exact ⟨htype, hremain⟩
      · rw [List.getElem?_eq_none (by simp; omega)] at hg
        cases hg

end Countdown

def countdown : RowKind Fragment where
  IsRow := IsCountdown
  isRow_init h := (isCountdown_concat.1 h).1
  not_begins h hbegins := by
    have htype := (isCountdown_concat.1 h).2.1
    rw [(isCountdown_nil.1 hbegins).1] at htype
    cases htype

/-- The buffer holds the data of the row, and expects the count behind it. -/
structure OpenTransaction.Covers (first : Fragment) (later : List Fragment) (o : OpenTransaction) :
    Prop where
  bytes_eq : o.data.bytes = (first :: later).flatMap (·.data)
  remain_eq : o.expectedRemain.toNat + later.length + 1 = first.identifier.remain.toNat

namespace OpenTransaction

theorem toNat_pred {count : UInt32} (h : count ≠ 0) : (count - 1).toNat + 1 = count.toNat := by
  have hne : count.toNat ≠ 0 := fun hzero => h (UInt32.toNat_inj.1 hzero)
  have hone : (1 : UInt32) ≤ count := by
    rw [UInt32.le_iff_toNat_le, UInt32.toNat_one]
    omega
  rw [UInt32.toNat_sub_of_le _ _ hone, UInt32.toNat_one]
  omega

theorem covers_of {f : Fragment} (h : f.identifier.remain ≠ 0) :
    Covers f [] ⟨.of f.data, f.identifier.remain - 1⟩ :=
  ⟨by simp, toNat_pred h⟩

variable {o : OpenTransaction} {first f : Fragment} {later : List Fragment}

theorem Covers.append (h : o.Covers first later) (hzero : o.expectedRemain ≠ 0) :
    Covers first (later ++ [f]) ⟨o.data.append f.data, o.expectedRemain - 1⟩ := by
  have hremain := h.remain_eq
  have hpred := toNat_pred hzero
  refine ⟨?_, ?_⟩
  · rw [Gathered.bytes_append, h.bytes_eq]
    simp
  · rw [List.length_append, List.length_singleton]
    dsimp only
    omega

/-- A buffer expects the count that comes next in its row. -/
theorem Covers.remain_eq_iff (h : o.Covers first later) :
    f.identifier.remain = o.expectedRemain ↔
      f.identifier.remain.toNat + later.length + 1 = first.identifier.remain.toNat := by
  have hremain := h.remain_eq
  rw [← UInt32.toNat_inj]
  omega

end OpenTransaction

namespace Reassembler

/-- The frame is for the node, holds no more than it may, and has a type that is in use. -/
def isEffective (config : CanConfig) (node : Option UInt32) (f : Fragment) : Bool :=
  node.all (· = f.identifier.dst) && decide (f.data.length ≤ config.maxFrameData) &&
    !f.identifier.frameType.isReserved

/-- The frame counts, and concerns what is kept under the key. -/
def touches (config : CanConfig) (node : Option UInt32) (key : TransactionKey) (f : Fragment) :
    Bool :=
  isEffective config node f && decide (affected f = key)

/-- All that a frame which counts can do to what is kept under its key. -/
inductive Turn (f : Fragment) :
    Option OpenTransaction → Except CanError ReassemblyEvent → Option OpenTransaction → Prop
  | whole {slot : Option OpenTransaction} :
      f.identifier.frameType = .start → f.identifier.remain = 0 →
      Turn f slot (.ok (.delivered (keyOf f.identifier) f.data)) none
  | opened {slot : Option OpenTransaction} :
      f.identifier.frameType = .start → f.identifier.remain ≠ 0 →
      Turn f slot (.ok .pending) (some ⟨.of f.data, f.identifier.remain - 1⟩)
  | next {o : OpenTransaction} :
      f.identifier.frameType = .continuation → f.identifier.remain = o.expectedRemain →
      f.identifier.remain ≠ 0 →
      Turn f (some o) (.ok .pending) (some ⟨o.data.append f.data, o.expectedRemain - 1⟩)
  | completed {o : OpenTransaction} :
      f.identifier.frameType = .last → f.identifier.remain = o.expectedRemain →
      f.identifier.remain = 0 →
      Turn f (some o) (.ok (.delivered (keyOf f.identifier) (o.data.append f.data).bytes)) none
  | unknown :
      f.identifier.frameType = .continuation ∨ f.identifier.frameType = .last →
      Turn f none (.error (.unknownTransaction f.identifier.src f.identifier.dst
        f.identifier.transaction)) none
  | broken {o : OpenTransaction} :
      f.identifier.frameType = .continuation ∨ f.identifier.frameType = .last →
      ¬(f.identifier.remain = o.expectedRemain ∧
        (f.identifier.frameType = .last ↔ f.identifier.remain = 0)) →
      Turn f (some o) (.error (.sequenceAnomaly f.identifier.src f.identifier.dst
        f.identifier.transaction o.expectedRemain f.identifier.remain)) none
  | requested {slot : Option OpenTransaction} :
      f.identifier.frameType = .retransmit →
      Turn f slot (.ok (.retransmissionRequested f.identifier.src f.identifier.dst
        f.identifier.transaction)) none

/-- The settings, which stay as they are. -/
structure Under (r : Reassembler) (config : CanConfig) (node : Option UInt32) : Prop where
  config_eq : r.config = config
  localNode_eq : r.localNode = node

variable {config : CanConfig} {node : Option UInt32} {r : Reassembler} {f : Fragment}
  {key : TransactionKey}

theorem join_turn (r : Reassembler) (f : Fragment) (isLast : Bool)
    (htype : f.identifier.frameType = if isLast then .last else .continuation) :
    Turn f (r.buffers.get? (keyOf f.identifier)) (r.join f.identifier isLast f.data).1
      ((r.join f.identifier isLast f.data).2.buffers.get? (keyOf f.identifier)) := by
  have hlater : f.identifier.frameType = .continuation ∨ f.identifier.frameType = .last := by
    cases isLast <;> simp_all
  have hlast : f.identifier.frameType = .last ↔ isLast = true := by
    cases isLast <;> simp_all
  unfold join
  cases hget : r.buffers.get? (keyOf f.identifier) with
  | none =>
    simp only [hget, Store.get?_erase_self]
    exact .unknown hlater
  | some o =>
    by_cases hrow : f.identifier.remain ≠ o.expectedRemain ∨
        isLast ≠ decide (f.identifier.remain = 0)
    · simp only [hget, if_pos hrow, Store.get?_erase_self]
      refine .broken hlater ?_
      rintro ⟨hremain, hzero⟩
      rcases hrow with hne | hne
      · exact hne hremain
      · exact hne (by rw [Bool.eq_iff_iff, ← hlast, hzero, decide_eq_true_iff])
    · simp only [hget, if_neg hrow]
      obtain ⟨hremain, hzero⟩ := not_or.1 hrow
      rw [not_not] at hremain hzero
      cases isLast with
      | true =>
        simp only [if_true, Store.get?_erase_self]
        exact .completed htype hremain (of_decide_eq_true hzero.symm)
      | false =>
        simp only [Bool.false_eq_true, if_false, Store.get?_insert_self]
        exact .next htype hremain (of_decide_eq_false hzero.symm)

theorem isEffective_eq_true :
    isEffective config node f = true ↔ node.any (· ≠ f.identifier.dst) = false ∧
      ¬config.maxFrameData < f.data.length ∧ f.identifier.frameType.isReserved = false := by
  cases node <;> simp [isEffective, and_assoc]

/-- A frame that counts takes its turn under the key that it concerns. -/
theorem accept_turn (hr : r.Under config node) (h : isEffective config node f = true) :
    Turn f (r.buffers.get? (affected f)) (r.accept f).1
      ((r.accept f).2.buffers.get? (affected f)) := by
  obtain ⟨rfl, rfl⟩ := hr
  obtain ⟨hnode, hdata, hreserved⟩ := isEffective_eq_true.1 h
  unfold accept
  simp only [hnode, if_neg hdata, Bool.false_eq_true, if_false]
  cases htype : f.identifier.frameType with
  | start =>
    rw [affected_eq_keyOf (by simp [htype])]
    unfold start
    by_cases hzero : f.identifier.remain = 0
    · simp only [if_pos hzero, Store.get?_erase_self]
      exact .whole htype hzero
    · simp only [if_neg hzero, Store.get?_insert_self]
      exact .opened htype hzero
  | continuation =>
    rw [affected_eq_keyOf (by simp [htype])]
    exact join_turn r f false htype
  | last =>
    rw [affected_eq_keyOf (by simp [htype])]
    exact join_turn r f true htype
  | retransmit =>
    rw [affected_of_request htype]
    simp only [Store.get?_erase_self]
    exact .requested htype
  | reserved value => simp [htype, FrameType.isReserved] at hreserved

/-- A frame that does not count is passed over, or refused for its length. -/
theorem accept_of_not_effective (hr : r.Under config node)
    (h : isEffective config node f = false) :
    (r.accept f).2 = r ∧ ((r.accept f).1 = .ok .ignored ∨
      (r.accept f).1 = .error (.frameDataTooLarge f.data.length config.maxFrameData)) := by
  obtain ⟨rfl, rfl⟩ := hr
  unfold accept
  by_cases hnode : r.localNode.any (· ≠ f.identifier.dst) = true
  · simp only [hnode, if_true]
    exact ⟨trivial, .inl trivial⟩
  simp only [hnode, Bool.false_eq_true, if_false]
  by_cases hdata : r.config.maxFrameData < f.data.length
  · simp only [if_pos hdata]
    exact ⟨trivial, .inr trivial⟩
  simp only [if_neg hdata]
  have hreserved : f.identifier.frameType.isReserved = true := by
    by_contra hnot
    rw [isEffective_eq_true.2 ⟨Bool.eq_false_iff.2 hnode, hdata, Bool.eq_false_iff.2 hnot⟩] at h
    cases h
  cases htype : f.identifier.frameType <;> simp_all [FrameType.isReserved]

section Turn
variable {seen : List Fragment} {slot slot' : Option OpenTransaction}
  {answer : Except CanError ReassemblyEvent}

/-- The buffer is open while the frames seen end in a row, and holds that row. -/
abbrev Shows (seen : List Fragment) (slot : Option OpenTransaction) : Prop :=
  countdown.Keeps OpenTransaction.Covers seen slot

theorem shows_none (hstart : f.identifier.frameType = .start → f.identifier.remain = 0)
    (hnext : f.identifier.frameType = .continuation → ∀ first later,
      countdown.EndsIn seen first later → f.identifier.remain ≠ 0 →
      f.identifier.remain.toNat + later.length + 1 ≠ first.identifier.remain.toNat) :
    Shows (seen ++ [f]) none := by
  refine RowKind.keeps_none ?_ ?_
  · intro hbegins
    obtain ⟨htype, hremain⟩ := isCountdown_nil.1 hbegins
    exact hremain (hstart htype)
  · intro first later hends hrow
    obtain ⟨-, htype, hzero, hremain⟩ := isCountdown_concat.1 hrow
    exact hnext htype first later hends hzero hremain

/-- A later frame ends its row unless it comes next in it. -/
theorem shows_none_of_later
    (htype : f.identifier.frameType = .continuation ∨ f.identifier.frameType = .last)
    (hnext : f.identifier.frameType = .continuation → ∀ first later,
      countdown.EndsIn seen first later → f.identifier.remain ≠ 0 →
      f.identifier.remain.toNat + later.length + 1 ≠ first.identifier.remain.toNat) :
    Shows (seen ++ [f]) none := by
  refine shows_none (fun hstart => ?_) hnext
  rw [hstart] at htype
  simp at htype

/-- After its turn a buffer shows the row in which the frames end with the new one. -/
theorem Turn.shows (h : Turn f slot answer slot') (hshows : Shows seen slot) :
    Shows (seen ++ [f]) slot' := by
  cases h with
  | whole htype hzero => exact shows_none (fun _ => hzero) (by simp [htype])
  | opened htype hremain =>
    exact RowKind.keeps_begin (isCountdown_nil.2 ⟨htype, hremain⟩)
      (OpenTransaction.covers_of hremain)
  | next htype hexpected hremain =>
    cases hshows with
    | row hends hcovers =>
      have hrow := isCountdown_concat.2
        ⟨hends.isRow, htype, hremain, hcovers.remain_eq_iff.1 hexpected⟩
      exact hends.keeps hrow (hcovers.append (hexpected ▸ hremain))
  | completed htype hexpected hzero => exact shows_none (fun _ => hzero) (by simp [htype])
  | unknown htype =>
    cases hshows with
    | nothing hnone =>
      exact shows_none_of_later htype fun _ _ _ hends => absurd hends (hnone _ _)
  | broken htype hbroken =>
    refine shows_none_of_later htype fun hnext first later hends hremain hcount => ?_
    obtain ⟨o, ho, hcovers⟩ := hshows.exists_holds hends
    cases ho
    exact hbroken ⟨hcovers.remain_eq_iff.2 hcount, by simp [hnext, hremain]⟩
  | requested htype => exact shows_none (by simp [htype]) (by simp [htype])

/-- A payload is handed over with a first frame that announces nothing more, or with the last frame
of a row. -/
theorem Turn.delivered_iff (h : Turn f slot answer slot') (hshows : Shows seen slot)
    (key : TransactionKey) (payload : Bytes) :
    answer = .ok (.delivered key payload) ↔
      key = keyOf f.identifier ∧ f.identifier.remain = 0 ∧
        (f.identifier.frameType = .start ∧ payload = f.data ∨
          f.identifier.frameType = .last ∧ ∃ first later, countdown.EndsIn seen first later ∧
            later.length + 1 = first.identifier.remain.toNat ∧
            payload = (first :: later ++ [f]).flatMap (·.data)) := by
  constructor
  · rintro rfl
    cases h with
    | whole htype hzero => exact ⟨rfl, hzero, .inl ⟨htype, rfl⟩⟩
    | completed htype hexpected hzero =>
      cases hshows with
      | @row first later _ hends hcovers =>
        have hcount := hcovers.remain_eq_iff.1 hexpected
        rw [hzero, UInt32.toNat_zero] at hcount
        refine ⟨rfl, hzero, .inr ⟨htype, first, later, hends, by omega, ?_⟩⟩
        rw [Gathered.bytes_append, hcovers.bytes_eq]
        simp
  · rintro ⟨rfl, hzero, ⟨htype, rfl⟩ | ⟨htype, first, later, hends, hlength, rfl⟩⟩
    · cases h with
      | whole _ _ => rfl
      | opened _ hremain => exact absurd hzero hremain
      | _ => simp_all
    · obtain ⟨o, rfl, hcovers⟩ := hshows.exists_holds hends
      have hexpected : f.identifier.remain = o.expectedRemain := by
        rw [hcovers.remain_eq_iff, hzero, UInt32.toNat_zero]
        omega
      cases h with
      | completed _ _ _ => simp [hcovers.bytes_eq]
      | broken _ hbroken => exact absurd ⟨hexpected, by simp [htype, hzero]⟩ hbroken
      | _ => simp_all

theorem Turn.error_iff (h : Turn f slot answer slot') (hshows : Shows seen slot)
    (error : CanError) :
    answer = .error error ↔
      (f.identifier.frameType = .continuation ∨ f.identifier.frameType = .last) ∧
        ((∀ first later, ¬countdown.EndsIn seen first later) ∧
            error = .unknownTransaction f.identifier.src f.identifier.dst
              f.identifier.transaction ∨
          ∃ first later expected, countdown.EndsIn seen first later ∧ ¬IsNext first later f ∧
            expected.toNat + later.length + 1 = first.identifier.remain.toNat ∧
            error = .sequenceAnomaly f.identifier.src f.identifier.dst f.identifier.transaction
              expected f.identifier.remain) := by
  constructor
  · rintro rfl
    cases h with
    | unknown htype =>
      cases hshows with
      | nothing hnone => exact ⟨htype, .inl ⟨hnone, rfl⟩⟩
    | @broken o htype hbroken =>
      cases hshows with
      | @row first later _ hends hcovers =>
        refine ⟨htype, .inr ⟨first, later, o.expectedRemain, hends, ?_, hcovers.remain_eq, rfl⟩⟩
        rintro ⟨hcount, hlast⟩
        exact hbroken ⟨hcovers.remain_eq_iff.2 hcount, hlast⟩
  · rintro ⟨htype, ⟨hnone, rfl⟩ | ⟨first, later, expected, hends, hnext, hexpected, rfl⟩⟩
    · cases hshows with
      | row hends _ => exact absurd hends (hnone _ _)
      | nothing _ =>
        cases h with
        | unknown _ => rfl
        | _ => simp_all
    · obtain ⟨o, rfl, hcovers⟩ := hshows.exists_holds hends
      have hword : expected = o.expectedRemain := by
        have hremain := hcovers.remain_eq
        rw [← UInt32.toNat_inj]
        omega
      cases h with
      | broken _ _ => rw [hword]
      | next hcontinuation hremain hne =>
        exact absurd ⟨hcovers.remain_eq_iff.1 hremain, by simp [hcontinuation, hne]⟩ hnext
      | completed hlast hremain hzero =>
        exact absurd ⟨hcovers.remain_eq_iff.1 hremain, by simp [hlast, hzero]⟩ hnext
      | _ => simp_all

theorem Turn.slot_of_error {error : CanError} (h : Turn f slot (.error error) slot') :
    slot' = none := by
  cases h <;> rfl

end Turn

theorem of_eq_ok (h : of config node = .ok r) : r = ⟨config, node, {}⟩ := by
  unfold of at h
  cases hvalid : config.validate with
  | error error => rw [hvalid] at h; cases h
  | ok => rw [hvalid] at h; cases h; rfl

theorem Under.run (h : r.Under config node) (trace : List Fragment) :
    (runLog accept r trace).2.Under config node := by
  induction trace using List.reverseRecOn with
  | nil => exact h
  | append_singleton trace f ih =>
    rw [runLog_concat]
    obtain ⟨hconfig, hnode⟩ := (accept_effect (runLog accept r trace).2 f).settings_eq
    exact ⟨hconfig.trans ih.config_eq, hnode.trans ih.localNode_eq⟩

theorem get?_accept_of_not_touches (hr : r.Under config node)
    (h : touches config node key f = false) :
    (r.accept f).2.buffers.get? key = r.buffers.get? key := by
  by_cases heffective : isEffective config node f = true
  · have hkey : key ≠ affected f := by
      rintro rfl
      simp [touches, heffective] at h
    exact ((accept_effect r f).frame hkey).1
  · rw [(accept_of_not_effective hr (Bool.eq_false_iff.2 heffective)).1]

/-- One more frame leaves under each key the row in which the frames of that key end. -/
theorem shows_accept (hr : r.Under config node) {trace : List Fragment}
    (h : Shows (trace.filter (touches config node key)) (r.buffers.get? key)) (f : Fragment) :
    Shows ((trace ++ [f]).filter (touches config node key))
      ((r.accept f).2.buffers.get? key) := by
  rw [List.filter_append]
  by_cases htouches : touches config node key f = true
  · obtain ⟨heffective, rfl⟩ : isEffective config node f = true ∧ affected f = key := by
      simpa [touches] using htouches
    rw [List.filter_cons_of_pos htouches, List.filter_nil]
    exact (accept_turn hr heffective).shows h
  · rw [List.filter_cons_of_neg htouches, List.filter_nil, List.append_nil,
      get?_accept_of_not_touches hr (Bool.eq_false_iff.2 htouches)]
    exact h

theorem shows_run (config : CanConfig) (node : Option UInt32) (key : TransactionKey)
    (trace : List Fragment) :
    Shows (trace.filter (touches config node key))
      ((runLog accept ⟨config, node, {}⟩ trace).2.buffers.get? key) := by
  induction trace using List.reverseRecOn with
  | nil => exact RowKind.keeps_nil
  | append_singleton trace f ih =>
    have hfresh : Under ⟨config, node, {}⟩ config node := ⟨rfl, rfl⟩
    rw [runLog_concat]
    exact shows_accept (hfresh.run trace) ih f

/-- What a fresh reassembler makes of any trace, and of the frame behind it. A payload is handed over
with a frame that counts and is a whole message, or the last one of a row that counts down without a
gap among the frames of its key. A buffer is open just as long as the frames of its key end in a row.
A later frame that does not come next in the row of its key is refused and closes the buffer, and a
frame that does not count leaves everything as it is. -/
theorem joins_rows {config : CanConfig} {node : Option UInt32} {r : Reassembler}
    (hr : Reassembler.of config node = .ok r) (trace : List Fragment) (f : Fragment) :
    let before := (runLog accept r trace).2
    let answer := (before.accept f).1
    let after := (before.accept f).2
    let seen := fun key => trace.filter (touches config node key)
    (∀ key payload, answer = .ok (.delivered key payload) ↔
      isEffective config node f = true ∧ key = keyOf f.identifier ∧ f.identifier.remain = 0 ∧
        (f.identifier.frameType = .start ∧ payload = f.data ∨
          f.identifier.frameType = .last ∧ ∃ first later, countdown.EndsIn (seen key) first later ∧
            later.length + 1 = first.identifier.remain.toNat ∧
            payload = (first :: later ++ [f]).flatMap (·.data))) ∧
    (∀ key, (before.buffers.get? key).isSome = true ↔
      ∃ first later, countdown.EndsIn (seen key) first later) ∧
    (isEffective config node f = true →
      f.identifier.frameType = .continuation ∨ f.identifier.frameType = .last →
      (∀ error, answer = .error error ↔
        (∀ first later, ¬countdown.EndsIn (seen (keyOf f.identifier)) first later) ∧
          error = .unknownTransaction f.identifier.src f.identifier.dst f.identifier.transaction ∨
        ∃ first later expected, countdown.EndsIn (seen (keyOf f.identifier)) first later ∧
          ¬IsNext first later f ∧
          expected.toNat + later.length + 1 = first.identifier.remain.toNat ∧
          error = .sequenceAnomaly f.identifier.src f.identifier.dst f.identifier.transaction
            expected f.identifier.remain) ∧
      ∀ error, answer = .error error → after.buffers.get? (keyOf f.identifier) = none) ∧
    (isEffective config node f = false → after = before) := by
  intro before answer after seen
  obtain rfl := of_eq_ok hr
  have hunder : before.Under config node := Under.run ⟨rfl, rfl⟩ trace
  have hshows : ∀ key, Shows (seen key) (before.buffers.get? key) :=
    fun key => shows_run config node key trace
  refine ⟨?_, fun key => (hshows key).isSome_iff, ?_,
    fun hidle => (accept_of_not_effective hunder hidle).1⟩
  · intro key payload
    by_cases heffective : isEffective config node f = true
    · have hturn := (accept_turn hunder heffective).delivered_iff (hshows _) key payload
      rw [hturn, and_iff_right heffective]
      refine and_congr_right fun hkey => and_congr_right fun _ =>
        or_congr_right (and_congr_right fun htype => ?_)
      rw [affected_eq_keyOf (by simp [htype]), hkey]
    · rw [Bool.not_eq_true] at heffective
      rcases (accept_of_not_effective hunder heffective).2 with hanswer | hanswer <;>
        simp [answer, hanswer, heffective]
  · intro heffective htype
    have haffected : affected f = keyOf f.identifier :=
      affected_eq_keyOf (by rcases htype with htype | htype <;> simp [htype])
    have hturn := accept_turn hunder heffective
    rw [haffected] at hturn
    refine ⟨fun error => ?_, fun error herror => ?_⟩
    · rw [hturn.error_iff (hshows _) error, and_iff_right htype]
    · simp only [answer] at herror
      rw [herror] at hturn
      exact hturn.slot_of_error

/-- Frames of another key, of a reserved type, of too much data and for another node come between
those of a row, which is handed over all the same. -/
theorem joins_mixed_rows :
    let trace : List Fragment :=
      [⟨⟨1, 2, .start, 2, 0⟩, [1, 2]⟩, ⟨⟨3, 2, .start, 1, 0⟩, [7, 8]⟩,
        ⟨⟨1, 2, .reserved 5, 0, 0⟩, []⟩, ⟨⟨1, 2, .continuation, 1, 0⟩, [3, 4]⟩,
        ⟨⟨1, 2, .continuation, 0, 0⟩, [9, 9, 9]⟩, ⟨⟨2, 1, .retransmit, 0, 0⟩, []⟩]
    ∃ r : Reassembler, Reassembler.of ⟨.extended, 2⟩ (some 2) = .ok r ∧
      ((runLog accept r trace).2.accept ⟨⟨1, 2, .last, 0, 0⟩, [5]⟩).1 =
        .ok (.delivered ⟨1, 2, 0⟩ [1, 2, 3, 4, 5]) ∧
      ((runLog accept r trace).2.buffers.get? ⟨3, 2, 0⟩).isSome = true := by
  intro trace
  obtain ⟨r, hr⟩ : ∃ r, Reassembler.of ⟨.extended, 2⟩ (some 2) = .ok r := ⟨_, rfl⟩
  obtain ⟨hdelivered, hopen, -, -⟩ := joins_rows hr trace ⟨⟨1, 2, .last, 0, 0⟩, [5]⟩
  have hrow : countdown.EndsIn (trace.filter (touches ⟨.extended, 2⟩ (some 2) ⟨1, 2, 0⟩))
      ⟨⟨1, 2, .start, 2, 0⟩, [1, 2]⟩ [⟨⟨1, 2, .continuation, 1, 0⟩, [3, 4]⟩] := by
    refine ⟨⟨[], by decide⟩, ?_⟩
    exact isCountdown_concat.2 ⟨isCountdown_nil.2 (by decide), by decide⟩
  have hother : countdown.EndsIn (trace.filter (touches ⟨.extended, 2⟩ (some 2) ⟨3, 2, 0⟩))
      ⟨⟨3, 2, .start, 1, 0⟩, [7, 8]⟩ [] :=
    ⟨⟨[], by decide⟩, isCountdown_nil.2 (by decide)⟩
  exact ⟨r, hr, (hdelivered _ _).2 ⟨by decide, rfl, rfl, .inr ⟨rfl, _, _, hrow, rfl, rfl⟩⟩,
    (hopen _).2 ⟨_, _, hother⟩⟩

end Reassembler
end SpaceLink
