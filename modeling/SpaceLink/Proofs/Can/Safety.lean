import Mathlib.Data.List.DropRight
import Mathlib.Data.List.Induction
import Mathlib.Logic.Function.Basic
import SpaceLink.Proofs.Can.Reassembler
import SpaceLink.Proofs.Run

/-! # Reassembly from a bad bus

Frames may be lost, repeated, reordered and mixed in any way. The invariant ties each open buffer to
the first frames of one transaction, which have come in their order since the last delivery under
its key; so nothing is handed over but what was sent.
-/
namespace SpaceLink.Reassembler
open Transaction

abbrev History := List (Fragment × Except CanError ReassemblyEvent)

def opens (key : TransactionKey) (f : Fragment) : Bool :=
  keyOf f.identifier = key && f.identifier.frameType = .start

/-- The frames that have come since the last delivery under the key. -/
def sinceDelivery (key : TransactionKey) (history : History) : List Fragment :=
  (history.rtakeWhile fun entry => !delivers key entry.2).map (·.1)

theorem sinceDelivery_concat {key : TransactionKey} {history : History}
    {entry : Fragment × Except CanError ReassemblyEvent} (h : delivers key entry.2 = false) :
    sinceDelivery key (history ++ [entry]) = sinceDelivery key history ++ [entry.1] := by
  rw [sinceDelivery, List.rtakeWhile_concat_pos _ _ _ (by simp [h]), List.map_append]
  rfl

/-- A request for retransmission, or a frame of a reserved type. -/
def IsControl (f : Fragment) : Prop :=
  f.identifier.frameType = .retransmit ∨ ∃ value, f.identifier.frameType = .reserved value

/-- Neither kind of frame adds to a buffer or hands anything over. -/
theorem accept_control (r : Reassembler) {f : Fragment} (h : IsControl f) :
    (∀ key, delivers key (r.accept f).1 = false) ∧
      ((r.accept f).2 = r ∨ ∃ key, (r.accept f).2 = r.close key) := by
  have hfeeds : ¬Feeds r f := by
    rintro (hstart | ⟨-, hlater | hlater⟩) <;> rcases h with htype | ⟨value, htype⟩ <;>
      simp_all
  have heffect := accept_effect r f
  generalize r.accept f = result at heffect ⊢
  cases heffect with
  | idle hanswer => exact ⟨hanswer, .inl rfl⟩
  | close hanswer => exact ⟨hanswer, .inr ⟨_, rfl⟩⟩
  | keep hfeed => exact absurd hfeed hfeeds
  | deliver hfeed => exact absurd hfeed hfeeds

def openCount (r : Reassembler) (key : TransactionKey) : Nat := (r.buffers.get? key).isSome.toNat

theorem openCount_close_self (r : Reassembler) (key : TransactionKey) :
    openCount (r.close key) key = 0 := by
  rw [openCount, get?_close_self]
  rfl

theorem Feeds.one_le {r : Reassembler} {f : Fragment} (h : Feeds r f) :
    1 ≤ openCount r (affected f) + (opens (affected f) f).toNat := by
  rcases h with hstart | ⟨hopen, -⟩
  · have hopens : opens (affected f) f = true := by simp [opens, affected, hstart]
    rw [hopens]
    exact Nat.le_add_left _ _
  · rw [openCount, hopen]
    exact Nat.le_add_right _ _

/-- Handing something over uses up an open buffer or a first frame. -/
theorem Effect.spends {r : Reassembler} {f : Fragment}
    {result : Except CanError ReassemblyEvent × Reassembler} (h : Effect r f result)
    (key : TransactionKey) :
    (delivers key result.1).toNat + openCount result.2 key ≤
      openCount r key + (opens key f).toNat := by
  by_cases hkey : key = affected f
  · subst hkey
    cases h with
    | idle hanswer =>
      rw [hanswer, Bool.toNat_false, Nat.zero_add]
      exact Nat.le_add_right _ _
    | close hanswer =>
      rw [hanswer, openCount_close_self]
      exact Nat.zero_le _
    | @keep o hfeeds =>
      have hle : openCount (r.keep (affected f) o) (affected f) ≤ 1 := Bool.toNat_le _
      exact (Nat.zero_add _).le.trans (hle.trans hfeeds.one_le)
    | deliver hfeeds =>
      rw [openCount_close_self]
      exact (Bool.toNat_le _).trans hfeeds.one_le
  · obtain ⟨hget, hnone⟩ := h.frame hkey
    rw [hnone, openCount, hget, Bool.toNat_false, Nat.zero_add]
    exact Nat.le_add_right _ _

section Family
variable {ι : Type} {config : CanConfig}

/-- Each buffer holds the first frames of one transaction of the family. They have come since the
last delivery under its key. -/
structure Faithful (t : ι → Transaction config) (history : History) (r : Reassembler) : Prop where
  config_eq : r.config = config
  holds : ∀ key o, r.buffers.get? key = some o → ∃ i n, (t i).key = key ∧ o.Holds (t i) n ∧
    ((t i).frames.take n).Sublist (sinceDelivery key history)

variable {t : ι → Transaction config} {history : History} {r : Reassembler} {f : Fragment}
  {answer : Except CanError ReassemblyEvent}

/-- Buffers that were there before stay in order as long as nothing is handed over under their
keys. -/
theorem Faithful.advance (h : Faithful t history r) {next : Reassembler}
    (hconfig : next.config = config)
    (hnext : ∀ key o, next.buffers.get? key = some o →
      r.buffers.get? key = some o ∧ delivers key answer = false ∨
      ∃ i n, (t i).key = key ∧ o.Holds (t i) n ∧
        ((t i).frames.take n).Sublist (sinceDelivery key (history ++ [(f, answer)]))) :
    Faithful t (history ++ [(f, answer)]) next := by
  refine ⟨hconfig, ?_⟩
  intro key o hget
  rcases hnext key o hget with ⟨hold, hkeep⟩ | hnew
  · obtain ⟨i, n, hkey, hholds, hframes⟩ := h.holds key o hold
    refine ⟨i, n, hkey, hholds, ?_⟩
    rw [sinceDelivery_concat hkeep]
    exact hframes.trans (List.sublist_append_left _ _)
  · exact hnew

theorem Faithful.same (h : Faithful t history r)
    (hanswer : ∀ key, delivers key answer = false) :
    Faithful t (history ++ [(f, answer)]) r :=
  h.advance h.config_eq fun key _ hget => .inl ⟨hget, hanswer key⟩

theorem Faithful.close (h : Faithful t history r) {closed : TransactionKey}
    (hanswer : ∀ key, key ≠ closed → delivers key answer = false) :
    Faithful t (history ++ [(f, answer)]) (r.close closed) := by
  refine h.advance h.config_eq ?_
  intro key o hget
  by_cases hkey : key = closed
  · rw [hkey, get?_close_self] at hget
    cases hget
  · rw [get?_close_of_ne r hkey] at hget
    exact .inl ⟨hget, hanswer key hkey⟩

theorem Faithful.keep (h : Faithful t history r) {i : ι} {n : Nat} {o : OpenTransaction}
    (hholds : o.Holds (t i) n)
    (hframes : ((t i).frames.take n).Sublist (sinceDelivery (t i).key history ++ [f])) :
    Faithful t (history ++ [(f, .ok .pending)]) (r.keep (t i).key o) := by
  refine h.advance h.config_eq ?_
  intro key other hget
  by_cases hkey : key = (t i).key
  · subst hkey
    rw [get?_keep_self] at hget
    cases hget
    refine .inr ⟨i, n, rfl, hholds, ?_⟩
    rw [sinceDelivery_concat rfl]
    exact hframes
  · rw [get?_keep_of_ne _ _ hkey] at hget
    exact .inl ⟨hget, rfl⟩

/-- The frames of a transaction up to the one that is awaited have come. -/
theorem Faithful.sublist (h : Faithful t history r) (hkeys : Function.Injective fun i => (t i).key)
    {i : ι} {index : Nat} (hawaits : r.Awaits (t i) index) (hf : (t i).frames[index]? = some f) :
    ((t i).frames.take (index + 1)).Sublist (sinceDelivery (t i).key history ++ [f]) := by
  rw [List.take_add_one, hf]
  refine List.Sublist.append ?_ (List.Sublist.refl _)
  rcases hawaits with rfl | ⟨o, hopen, hholds⟩
  · exact List.nil_sublist _
  · obtain ⟨j, n, hkey, hother, hframes⟩ := h.holds _ o hopen
    have hij : j = i := hkeys hkey
    subst hij
    have hcount := hother.remain_eq
    have hindex := hholds.remain_eq
    have hn : n = index := by omega
    exact hn ▸ hframes

theorem Faithful.frame (h : Faithful t history r) (hkeys : Function.Injective fun i => (t i).key)
    {i : ι} {index : Nat} (hf : (t i).frames[index]? = some f) :
    Faithful t (history ++ [(f, (r.accept f).1)]) (r.accept f).2 ∧
      ∀ key payload, (r.accept f).1 = .ok (.delivered key payload) →
        ∃ i, (t i).key = key ∧ payload = (t i).payload ∧
          (t i).frames.Sublist (sinceDelivery key history ++ [f]) := by
  by_cases hears : r.Hears (t i).dst
  swap
  · rw [accept_unheard hf hears]
    exact ⟨h.same fun _ => rfl, by simp⟩
  by_cases hawaits : r.Awaits (t i) index
  · have hcome := h.sublist hkeys hawaits hf
    obtain ⟨hindex, -⟩ := List.getElem?_eq_some_iff.1 hf
    by_cases hlast : index + 1 = (t i).frames.length
    · rw [accept_end hf h.config_eq hears hawaits hlast]
      refine ⟨h.close fun key hne => ?_, ?_⟩
      · simpa [delivers] using hne.symm
      · intro key payload hanswer
        cases hanswer
        rw [hlast, List.take_length] at hcome
        exact ⟨i, rfl, rfl, hcome⟩
    · obtain ⟨o, hholds, haccept⟩ := accept_next hf h.config_eq hears hawaits (by omega)
      rw [haccept]
      exact ⟨h.keep hholds hcome, by simp⟩
  · have hlater : index ≠ 0 := fun hzero => hawaits (.inl hzero)
    obtain ⟨error, haccept⟩ := accept_stray hf h.config_eq hears hlater (by
      intro o hopen
      obtain ⟨j, n, hkey, hholds, -⟩ := h.holds _ o hopen
      have hij : j = i := hkeys hkey
      subst hij
      exact ⟨n, fun hn => hawaits (.inr ⟨o, hopen, hn ▸ hholds⟩), hholds⟩)
    rw [haccept]
    exact ⟨h.close fun _ _ => rfl, by simp⟩

/-- What any frame brings about that belongs to the family or carries no data. -/
theorem Faithful.step (h : Faithful t history r) (hkeys : Function.Injective fun i => (t i).key)
    (hf : (∃ i, f ∈ (t i).frames) ∨ IsControl f) :
    Faithful t (history ++ [(f, (r.accept f).1)]) (r.accept f).2 ∧
      ∀ key payload, (r.accept f).1 = .ok (.delivered key payload) →
        ∃ i, (t i).key = key ∧ payload = (t i).payload ∧
          (t i).frames.Sublist (sinceDelivery key history ++ [f]) := by
  rcases hf with ⟨i, hmem⟩ | hcontrol
  · obtain ⟨index, hindex⟩ := List.mem_iff_getElem?.1 hmem
    exact h.frame hkeys hindex
  · obtain ⟨hanswer, hnext⟩ := accept_control r hcontrol
    refine ⟨?_, ?_⟩
    · rcases hnext with hsame | ⟨key, hclose⟩
      · rw [hsame]
        exact h.same hanswer
      · rw [hclose]
        exact h.close fun key _ => hanswer key
    · intro key payload hdelivered
      have hnone := hanswer key
      rw [hdelivered] at hnone
      simp [delivers] at hnone

theorem faithful_run (hconfig : r.config = config) (hempty : r.buffers = {})
    (hkeys : Function.Injective fun i => (t i).key) {frames : List Fragment}
    (hframes : ∀ f ∈ frames, (∃ i, f ∈ (t i).frames) ∨ IsControl f) :
    Faithful t (runLog accept r frames).1 (runLog accept r frames).2 := by
  induction frames using List.reverseRecOn with
  | nil =>
    refine ⟨hconfig, ?_⟩
    intro key o hget
    rw [runLog, hempty] at hget
    cases hget
  | append_singleton frames f ih =>
    have hdone := ih fun g hg => hframes g (List.mem_append_left _ hg)
    have hf := hframes f (List.mem_append_right _ (List.mem_singleton_self f))
    rw [runLog_concat]
    exact (hdone.step hkeys hf).1

end Family

/-- No more payloads are handed over than first frames have come. -/
theorem countP_delivers_le {r : Reassembler} (hempty : r.buffers = {}) (key : TransactionKey)
    (frames : List Fragment) :
    (runLog accept r frames).1.countP (fun entry => delivers key entry.2) +
        openCount (runLog accept r frames).2 key ≤
      (runLog accept r frames).1.countP (fun entry => opens key entry.1) := by
  induction frames using List.reverseRecOn with
  | nil =>
    rw [runLog, openCount, hempty]
    exact Nat.le_refl _
  | append_singleton frames f ih =>
    have hspends := (accept_effect (runLog accept r frames).2 f).spends key
    have hone : ∀ b : Bool, (if b = true then 1 else 0) = b.toNat := by
      intro b
      cases b <;> rfl
    rw [runLog_concat]
    simp only [List.countP_append, List.countP_singleton, hone]
    omega

/-- A fresh reassembler on any bus hands over only what was sent. What is handed over under a key is
the payload of its transaction, whose frames have all come in their order since the last delivery
under the key, and each delivery has a first frame of its own. -/
theorem delivers_only_sent {ι : Type} {config : CanConfig} {node : Option UInt32} {r : Reassembler}
    (hr : Reassembler.of config node = .ok r) (t : ι → Transaction config)
    (hkeys : Function.Injective fun i => (t i).key) {frames : List Fragment}
    (hframes : ∀ f ∈ frames, (∃ i, f ∈ (t i).frames) ∨ IsControl f) :
    let history := (runLog accept r frames).1
    (∀ old f key payload new, history = old ++ (f, .ok (.delivered key payload)) :: new →
      ∃ i, (t i).key = key ∧ payload = (t i).payload ∧
        (t i).frames.Sublist (sinceDelivery key old ++ [f])) ∧
    ∀ key old new, history = old ++ new →
      old.countP (fun entry => delivers key entry.2) ≤
        old.countP (fun entry => opens key entry.1) := by
  have hfresh : r.config = config ∧ r.buffers = {} := by
    rw [Reassembler.of] at hr
    cases hvalid : config.validate with
    | error error => rw [hvalid] at hr; cases hr
    | ok => rw [hvalid] at hr; cases hr; exact ⟨rfl, rfl⟩
  obtain ⟨hconfig, hempty⟩ := hfresh
  refine ⟨?_, ?_⟩
  · intro old f key payload new hhistory
    obtain ⟨before, after, rfl, rfl, hanswer⟩ := exists_of_runLog_eq_cons accept hhistory
    have hdone := faithful_run hconfig hempty hkeys fun g hg =>
      hframes g (List.mem_append_left _ hg)
    have hf := hframes f (List.mem_append_right _ List.mem_cons_self)
    exact (hdone.step hkeys hf).2 key payload hanswer
  · intro key old new hhistory
    obtain ⟨before, after, -, rfl, -⟩ := exists_of_runLog_eq_append accept hhistory
    exact (Nat.le_add_right _ _).trans (countP_delivers_le hempty key before)

/-- The last frame comes too early, and the first one twice. -/
theorem delivers_threeBytes_late :
    let old : History :=
      [(⟨⟨1, 2, .last, 0, 0⟩, [3]⟩, .error (.unknownTransaction 1 2 0)),
        (⟨⟨1, 2, .start, 1, 0⟩, [1, 2]⟩, .ok .pending),
        (⟨⟨1, 2, .start, 1, 0⟩, [1, 2]⟩, .ok .pending)]
    let last : Fragment := ⟨⟨1, 2, .last, 0, 0⟩, [3]⟩
    (runLog accept ⟨⟨.extended, 2⟩, none, {}⟩ (old.map (·.1) ++ [last])).1 =
        old ++ [(last, .ok (.delivered ⟨1, 2, 0⟩ [1, 2, 3]))] ∧
      threeBytes.frames.Sublist (sinceDelivery ⟨1, 2, 0⟩ old ++ [last]) ∧
      old.countP (fun entry => delivers ⟨1, 2, 0⟩ entry.2) ≤
        old.countP (fun entry => opens ⟨1, 2, 0⟩ entry.1) := by
  intro old last
  have hlog : (runLog accept ⟨⟨.extended, 2⟩, none, {}⟩ (old.map (·.1) ++ [last])).1 =
      old ++ [(last, .ok (.delivered ⟨1, 2, 0⟩ [1, 2, 3]))] := by decide
  have hmem : ∀ f ∈ old.map (·.1) ++ [last], f ∈ threeBytes.frames := by decide
  obtain ⟨hdelivered, hcount⟩ := delivers_only_sent
    (show Reassembler.of ⟨.extended, 2⟩ none = .ok _ from rfl) (fun _ : Unit => threeBytes)
    (fun _ _ _ => rfl) (fun f hf => .inl ⟨(), hmem f hf⟩)
  obtain ⟨-, -, -, hcome⟩ := hdelivered old last ⟨1, 2, 0⟩ [1, 2, 3] [] hlog
  exact ⟨hlog, hcome, hcount ⟨1, 2, 0⟩ old _ hlog⟩

end SpaceLink.Reassembler
