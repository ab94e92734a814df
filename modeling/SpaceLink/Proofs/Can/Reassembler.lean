import SpaceLink.Proofs.Can.Fragmenter

/-! # One frame at a reassembler

What a reassembler does with a frame of a transaction depends on how many frames of it the open
buffer holds. The next one is joined, or completes the payload, and any other closes the buffer.
-/
namespace SpaceLink
open Fragmenter

variable {config : CanConfig} {t : Transaction config} {index : Nat} {f : Fragment}

/-- The buffer holds the first `n` frames of the transaction, and expects the next one. -/
structure OpenTransaction.Holds (o : OpenTransaction) (t : Transaction config) (n : Nat) : Prop where
  pos : 0 < n
  bytes_eq : o.data.bytes = (t.frames.take n).flatMap (·.data)
  remain_eq : o.expectedRemain.toNat + n + 1 = t.frames.length

namespace Transaction

theorem remain_eq_zero_iff (h : t.frames[index]? = some f) :
    f.identifier.remain = 0 ↔ index + 1 = t.frames.length := by
  have hremain := remain_frame h
  rw [← UInt32.toNat_inj, UInt32.toNat_zero]
  omega

theorem take_succ_data (h : t.frames[index]? = some f) :
    (t.frames.take (index + 1)).flatMap (·.data) =
      (t.frames.take index).flatMap (·.data) ++ f.data := by
  rw [List.take_add_one, h]
  simp

theorem data_of_last (h : t.frames[index]? = some f) (hlast : index + 1 = t.frames.length) :
    (t.frames.take index).flatMap (·.data) ++ f.data = t.payload := by
  rw [← take_succ_data h, hlast, List.take_length, data_frames]

theorem remain_pred (h : t.frames[index]? = some f) (hmore : index + 1 < t.frames.length) :
    (f.identifier.remain - 1).toNat + (index + 1) + 1 = t.frames.length := by
  have hremain := remain_frame h
  have hone : (1 : UInt32) ≤ f.identifier.remain := by
    rw [UInt32.le_iff_toNat_le, UInt32.toNat_one]
    omega
  rw [UInt32.toNat_sub_of_le _ _ hone, UInt32.toNat_one]
  omega

/-- A buffer expects the frame behind those that it holds. -/
theorem remain_eq_expected_iff (h : t.frames[index]? = some f) {o : OpenTransaction} {n : Nat}
    (hholds : o.Holds t n) : f.identifier.remain = o.expectedRemain ↔ n = index := by
  have hremain := remain_frame h
  have ho := hholds.remain_eq
  rw [← UInt32.toNat_inj]
  omega

end Transaction

namespace Reassembler
open Transaction

def close (r : Reassembler) (key : TransactionKey) : Reassembler :=
  { r with buffers := r.buffers.erase key }

def keep (r : Reassembler) (key : TransactionKey) (o : OpenTransaction) : Reassembler :=
  { r with buffers := r.buffers.insert key o }

theorem get?_close_self (r : Reassembler) (key : TransactionKey) :
    (r.close key).buffers.get? key = none := Store.get?_erase_self _ _

theorem get?_close_of_ne (r : Reassembler) {key other : TransactionKey} (h : other ≠ key) :
    (r.close key).buffers.get? other = r.buffers.get? other := Store.get?_erase_of_ne _ h

theorem get?_keep_self (r : Reassembler) (key : TransactionKey) (o : OpenTransaction) :
    (r.keep key o).buffers.get? key = some o := Store.get?_insert_self _ _ _

theorem get?_keep_of_ne (r : Reassembler) {key other : TransactionKey} (o : OpenTransaction)
    (h : other ≠ key) : (r.keep key o).buffers.get? other = r.buffers.get? other :=
  Store.get?_insert_of_ne _ _ h

/-- The reassembler takes frames to the node in. -/
def Hears (r : Reassembler) (node : UInt32) : Prop := r.localNode.any (· ≠ node) = false

/-- The key whose buffer a frame can change. A request names a transaction that runs the other
way. -/
def affected (f : Fragment) : TransactionKey :=
  if f.identifier.frameType = .retransmit then
    ⟨f.identifier.dst, f.identifier.src, f.identifier.transaction⟩
  else keyOf f.identifier

theorem affected_of_request {f : Fragment} (h : f.identifier.frameType = .retransmit) :
    affected f = ⟨f.identifier.dst, f.identifier.src, f.identifier.transaction⟩ := if_pos h

theorem affected_eq_keyOf {f : Fragment} (h : f.identifier.frameType ≠ .retransmit) :
    affected f = keyOf f.identifier := if_neg h

def delivers (key : TransactionKey) (answer : Except CanError ReassemblyEvent) : Bool :=
  match answer with
  | .ok (.delivered k _) => k = key
  | _ => false

/-- The frame opens a transaction, or its transaction is open and it is a later part of that. -/
def Feeds (r : Reassembler) (f : Fragment) : Prop :=
  f.identifier.frameType = .start ∨
    (r.buffers.get? (affected f)).isSome = true ∧
      (f.identifier.frameType = .continuation ∨ f.identifier.frameType = .last)

/-- All that a frame can bring about. -/
inductive Effect (r : Reassembler) (f : Fragment) :
    Except CanError ReassemblyEvent × Reassembler → Prop
  | idle {answer : Except CanError ReassemblyEvent} :
      (∀ key, delivers key answer = false) → Effect r f (answer, r)
  | close {answer : Except CanError ReassemblyEvent} :
      (∀ key, delivers key answer = false) → Effect r f (answer, r.close (affected f))
  | keep {o : OpenTransaction} :
      Feeds r f → Effect r f (.ok .pending, r.keep (affected f) o)
  | deliver {payload : Bytes} :
      Feeds r f → Effect r f (.ok (.delivered (affected f) payload), r.close (affected f))

theorem join_effect (r : Reassembler) {f : Fragment} (isLast : Bool)
    (htype : f.identifier.frameType = .continuation ∨ f.identifier.frameType = .last) :
    Effect r f (r.join f.identifier isLast f.data) := by
  have hother : f.identifier.frameType ≠ .retransmit := by
    rcases htype with htype | htype <;> simp [htype]
  rw [join, ← affected_eq_keyOf hother]
  cases hget : r.buffers.get? (affected f) with
  | none => exact .close fun _ => rfl
  | some started =>
    have hfeeds : Feeds r f := .inr ⟨by rw [hget]; rfl, htype⟩
    simp only
    split
    · exact .close fun _ => rfl
    · split
      · exact .deliver hfeeds
      · exact .keep hfeeds

theorem accept_effect (r : Reassembler) (f : Fragment) : Effect r f (r.accept f) := by
  rw [accept]
  by_cases hnode : r.localNode.any (· ≠ f.identifier.dst) = true
  · rw [if_pos hnode]
    exact .idle fun _ => rfl
  rw [if_neg hnode]
  by_cases hdata : r.config.maxFrameData < f.data.length
  · rw [if_pos hdata]
    exact .idle fun _ => rfl
  rw [if_neg hdata]
  cases htype : f.identifier.frameType with
  | start =>
    have hfeeds : Feeds r f := .inl htype
    simp only
    rw [start, ← affected_eq_keyOf (by simp [htype])]
    split
    · exact .deliver hfeeds
    · exact .keep hfeeds
  | continuation => exact join_effect r false (.inl htype)
  | last => exact join_effect r true (.inr htype)
  | retransmit =>
    simp only
    rw [← affected_of_request htype]
    exact .close fun _ => rfl
  | reserved value => exact .idle fun _ => rfl

theorem Effect.settings_eq {r : Reassembler} {f : Fragment}
    {result : Except CanError ReassemblyEvent × Reassembler} (h : Effect r f result) :
    result.2.config = r.config ∧ result.2.localNode = r.localNode := by
  cases h <;> exact ⟨rfl, rfl⟩

theorem acceptCan_settings (r : Reassembler) (frame : CanFrame) :
    (r.acceptCan frame).2.config = r.config ∧ (r.acceptCan frame).2.localNode = r.localNode := by
  rw [acceptCan]
  cases Fragment.ofCan r.config.layout frame with
  | error error => exact ⟨rfl, rfl⟩
  | ok f => exact (accept_effect r f).settings_eq

theorem Effect.frame {r : Reassembler} {f : Fragment}
    {result : Except CanError ReassemblyEvent × Reassembler} (h : Effect r f result)
    {key : TransactionKey} (hkey : key ≠ affected f) :
    result.2.buffers.get? key = r.buffers.get? key ∧ delivers key result.1 = false := by
  cases h with
  | idle hanswer => exact ⟨rfl, hanswer key⟩
  | close hanswer => exact ⟨get?_close_of_ne r hkey, hanswer key⟩
  | keep _ => exact ⟨get?_keep_of_ne r _ hkey, rfl⟩
  | deliver _ => exact ⟨get?_close_of_ne r hkey, by simpa [delivers] using Ne.symm hkey⟩

/-- The frame is taken in and changes what is kept under the key. -/
structure Disturbs (r : Reassembler) (f : Fragment) (key : TransactionKey) : Prop where
  hears : r.Hears f.identifier.dst
  type_ne : ∀ value, f.identifier.frameType ≠ .reserved value
  affected_eq : affected f = key

theorem accept_undisturbed {r : Reassembler} {f : Fragment} {key : TransactionKey}
    (h : ¬r.Disturbs f key) :
    (r.accept f).2.buffers.get? key = r.buffers.get? key ∧
      delivers key (r.accept f).1 = false := by
  by_cases hkey : affected f = key
  swap
  · exact (accept_effect r f).frame (Ne.symm hkey)
  rw [accept]
  by_cases hears : r.Hears f.identifier.dst
  swap
  · rw [if_pos (by simpa only [Hears, Bool.not_eq_false] using hears)]
    exact ⟨rfl, rfl⟩
  rw [if_neg (by rw [hears]; exact Bool.false_ne_true)]
  by_cases hdata : r.config.maxFrameData < f.data.length
  · rw [if_pos hdata]
    exact ⟨rfl, rfl⟩
  rw [if_neg hdata]
  have hreserved : ∃ value, f.identifier.frameType = .reserved value := by
    by_contra hnone
    exact h ⟨hears, fun value htype => hnone ⟨value, htype⟩, hkey⟩
  obtain ⟨value, htype⟩ := hreserved
  rw [htype]
  exact ⟨rfl, rfl⟩

/-- The frame at `index` is the next one of the transaction. The first one always is. -/
def Awaits (r : Reassembler) (t : Transaction config) (index : Nat) : Prop :=
  index = 0 ∨ ∃ o : OpenTransaction, r.buffers.get? t.key = some o ∧ o.Holds t index

variable {r : Reassembler}

theorem accept_unheard (h : t.frames[index]? = some f) (hears : ¬r.Hears t.dst) :
    r.accept f = (.ok .ignored, r) := by
  have hnode : r.localNode.any (· ≠ f.identifier.dst) = true := by
    rw [(route_frame h).2.1]
    simpa only [Hears, Bool.not_eq_false] using hears
  rw [accept, if_pos hnode]

/-- A frame of a transaction passes the checks that come before its type counts. -/
theorem accept_heard (h : t.frames[index]? = some f) (hconfig : r.config = config)
    (hears : r.Hears t.dst) :
    r.accept f = if index = 0 then
        (.ok (r.start f.identifier f.data).1, (r.start f.identifier f.data).2)
      else r.join f.identifier (decide (index + 1 = t.frames.length)) f.data := by
  have hnode : ¬r.localNode.any (· ≠ f.identifier.dst) = true := by
    rw [(route_frame h).2.1, Bool.not_eq_true]
    exact hears
  have hdata : ¬r.config.maxFrameData < f.data.length := by
    rw [hconfig]
    exact Nat.not_lt.2 (t.frame_eq h).2
  rw [accept, if_neg hnode, if_neg hdata, type_frame h, typeFor]
  by_cases hfirst : index = 0
  · rw [if_pos hfirst, if_pos hfirst]
  · rw [if_neg hfirst, if_neg hfirst]
    by_cases hlast : index + 1 = t.frames.length
    · rw [if_pos hlast, decide_eq_true hlast]
    · rw [if_neg hlast, decide_eq_false hlast]

theorem join_of_holds (h : t.frames[index]? = some f) {o : OpenTransaction}
    (hopen : r.buffers.get? t.key = some o) (hholds : o.Holds t index) :
    r.join f.identifier (decide (index + 1 = t.frames.length)) f.data =
      if index + 1 = t.frames.length then
        (.ok (.delivered t.key (o.data.append f.data).bytes), r.close t.key)
      else (.ok .pending, r.keep t.key ⟨o.data.append f.data, o.expectedRemain - 1⟩) := by
  have hexpected := (remain_eq_expected_iff h hholds).2 rfl
  have hzero : decide (index + 1 = t.frames.length) = decide (f.identifier.remain = 0) := by
    rw [decide_eq_decide, remain_eq_zero_iff h]
  have hrow : ¬(f.identifier.remain ≠ o.expectedRemain ∨
      decide (index + 1 = t.frames.length) ≠ decide (f.identifier.remain = 0)) := by
    rw [hexpected] at hzero ⊢
    simp [hzero]
  rw [join, keyOf_frame h, hopen]
  simp only
  rw [if_neg hrow]
  by_cases hlast : index + 1 = t.frames.length
  · rw [if_pos hlast, if_pos (decide_eq_true hlast)]
    rfl
  · rw [if_neg hlast, if_neg (by simpa using hlast)]
    rfl

/-- The last frame, after all others, completes the payload. -/
theorem accept_end (h : t.frames[index]? = some f) (hconfig : r.config = config)
    (hears : r.Hears t.dst) (hawaits : r.Awaits t index) (hlast : index + 1 = t.frames.length) :
    r.accept f = (.ok (.delivered t.key t.payload), r.close t.key) := by
  rw [accept_heard h hconfig hears]
  have hpayload := data_of_last h hlast
  rcases hawaits with rfl | ⟨o, hopen, hholds⟩
  · have hzero := (remain_eq_zero_iff h).2 hlast
    rw [if_pos rfl, start, if_pos hzero, keyOf_frame h, ← hpayload]
    rfl
  · have hpos := hholds.pos
    rw [if_neg (Nat.ne_of_gt hpos), join_of_holds h hopen hholds, if_pos hlast,
      Gathered.bytes_append, hholds.bytes_eq, hpayload]

/-- An earlier frame, after those before it, is kept. -/
theorem accept_next (h : t.frames[index]? = some f) (hconfig : r.config = config)
    (hears : r.Hears t.dst) (hawaits : r.Awaits t index) (hmore : index + 1 < t.frames.length) :
    ∃ o : OpenTransaction, o.Holds t (index + 1) ∧
      r.accept f = (.ok .pending, r.keep t.key o) := by
  rw [accept_heard h hconfig hears]
  have hremain := remain_pred h hmore
  rcases hawaits with rfl | ⟨o, hopen, hholds⟩
  · have hzero : f.identifier.remain ≠ 0 := fun hzero =>
      Nat.ne_of_lt hmore ((remain_eq_zero_iff h).1 hzero)
    refine ⟨⟨.of f.data, f.identifier.remain - 1⟩, ⟨Nat.succ_pos _, ?_, hremain⟩, ?_⟩
    · rw [Gathered.bytes_of, take_succ_data h]
      rfl
    · rw [if_pos rfl, start, if_neg hzero, keyOf_frame h]
      rfl
  · have hpos := hholds.pos
    have hexpected := (remain_eq_expected_iff h hholds).2 rfl
    refine ⟨⟨o.data.append f.data, o.expectedRemain - 1⟩, ⟨Nat.succ_pos _, ?_, ?_⟩, ?_⟩
    · rw [Gathered.bytes_append, hholds.bytes_eq, take_succ_data h]
    · rw [← hexpected]
      exact hremain
    · rw [if_neg (Nat.ne_of_gt hpos), join_of_holds h hopen hholds, if_neg (Nat.ne_of_lt hmore)]

/-- A frame behind the first that does not come next breaks the row, and closes the buffer. -/
theorem accept_broken (h : t.frames[index]? = some f) (hconfig : r.config = config)
    (hears : r.Hears t.dst) (hlater : index ≠ 0) {o : OpenTransaction} {n : Nat}
    (hopen : r.buffers.get? t.key = some o) (hholds : o.Holds t n) (hn : n ≠ index) :
    r.accept f = (.error (.sequenceAnomaly t.src t.dst t.key.transaction o.expectedRemain
      f.identifier.remain), r.close t.key) := by
  have hunexpected : f.identifier.remain ≠ o.expectedRemain := fun heq =>
    hn ((remain_eq_expected_iff h hholds).1 heq)
  obtain ⟨hsrc, hdst, htransaction⟩ := route_frame h
  rw [accept_heard h hconfig hears, if_neg hlater, join, keyOf_frame h, hopen]
  simp only
  rw [if_pos (Or.inl hunexpected), hsrc, hdst, htransaction]
  rfl

/-- Without a buffer, such a frame belongs to nothing. -/
theorem accept_unknown (h : t.frames[index]? = some f) (hconfig : r.config = config)
    (hears : r.Hears t.dst) (hlater : index ≠ 0) (hnone : r.buffers.get? t.key = none) :
    r.accept f =
      (.error (.unknownTransaction t.src t.dst t.key.transaction), r.close t.key) := by
  obtain ⟨hsrc, hdst, htransaction⟩ := route_frame h
  rw [accept_heard h hconfig hears, if_neg hlater, join, keyOf_frame h, hnone]
  simp only
  rw [hsrc, hdst, htransaction]
  rfl

theorem accept_stray (h : t.frames[index]? = some f) (hconfig : r.config = config)
    (hears : r.Hears t.dst) (hlater : index ≠ 0)
    (hopen : ∀ o : OpenTransaction, r.buffers.get? t.key = some o →
      ∃ n, n ≠ index ∧ o.Holds t n) :
    ∃ error : CanError, r.accept f = (.error error, r.close t.key) := by
  cases hget : r.buffers.get? t.key with
  | none => exact ⟨_, accept_unknown h hconfig hears hlater hget⟩
  | some o =>
    obtain ⟨n, hn, hholds⟩ := hopen o hget
    exact ⟨_, accept_broken h hconfig hears hlater hget hholds hn⟩

end Reassembler
end SpaceLink
