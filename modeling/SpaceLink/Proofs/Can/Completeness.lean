import Mathlib.Data.List.Induction
import Mathlib.Data.Sigma.Basic
import Mathlib.Logic.Function.Basic
import SpaceLink.Proofs.Can.Reassembler
import SpaceLink.Proofs.Run

/-! # Reassembly of everything that comes whole

The frames of many transactions come mixed, each transaction in its order. Transactions under one key
do not overlap, so every buffer holds the frames that have come of one transaction, and each payload
is handed over with its last frame, whatever the reassembler held before.
-/
namespace SpaceLink

/-- What passes on the bus: a frame of a call, or any other one. -/
inductive Traffic (κ : Type) where
  | own (call : κ) (f : Fragment)
  | foreign (frame : CanFrame)

namespace Traffic

variable {κ : Type} [DecidableEq κ]

def isOf (call : κ) : Traffic κ → Bool
  | own c _ => c = call
  | foreign _ => false

def frameOf (call : κ) : Traffic κ → Option Fragment
  | own c f => if c = call then some f else none
  | foreign _ => none

def framesOf (call : κ) (trace : List (Traffic κ)) : List Fragment := trace.filterMap (frameOf call)

theorem framesOf_append (call : κ) (xs ys : List (Traffic κ)) :
    framesOf call (xs ++ ys) = framesOf call xs ++ framesOf call ys := List.filterMap_append

theorem framesOf_own_self (call : κ) (f : Fragment) (rest : List (Traffic κ)) :
    framesOf call (own call f :: rest) = f :: framesOf call rest :=
  List.filterMap_cons_some (if_pos rfl)

theorem framesOf_own_of_ne {call other : κ} (h : other ≠ call) (f : Fragment)
    (rest : List (Traffic κ)) : framesOf call (own other f :: rest) = framesOf call rest :=
  List.filterMap_cons_none (if_neg h)

theorem framesOf_concat_self (call : κ) (f : Fragment) (trace : List (Traffic κ)) :
    framesOf call (trace ++ [own call f]) = framesOf call trace ++ [f] := by
  rw [framesOf_append, framesOf_own_self]
  rfl

theorem framesOf_concat_of_ne {call : κ} {x : Traffic κ} (h : x.isOf call = false)
    (trace : List (Traffic κ)) : framesOf call (trace ++ [x]) = framesOf call trace := by
  have hnone : framesOf call [x] = [] := by
    cases x with
    | own other f => exact framesOf_own_of_ne (of_decide_eq_false h) f []
    | foreign frame => rfl
  rw [framesOf_append, hnone, List.append_nil]

/-- No frame of the second call comes before one of the first. -/
def Precedes (trace : List (Traffic κ)) (first second : κ) : Prop :=
  trace.Pairwise fun x y => x.isOf second = true → y.isOf first = false

theorem exists_isOf_of_framesOf {call : κ} {trace : List (Traffic κ)}
    (h : 0 < (framesOf call trace).length) : ∃ x ∈ trace, x.isOf call = true := by
  obtain ⟨f, hf⟩ := List.exists_mem_of_length_pos h
  obtain ⟨x, hx, hframe⟩ := List.mem_filterMap.1 hf
  refine ⟨x, hx, ?_⟩
  cases x with
  | own c g =>
    by_cases hc : c = call
    · exact decide_eq_true hc
    · simp [frameOf, hc] at hframe
  | foreign frame => cases hframe

/-- While a frame of one call passes, no call that does not overlap it is under way. -/
theorem complete_of_precedes {done rest : List (Traffic κ)} {a b : κ} {f : Fragment} (hne : b ≠ a)
    (h : Precedes (done ++ own a f :: rest) a b ∨ Precedes (done ++ own a f :: rest) b a)
    (hbegun : 0 < (framesOf b done).length) :
    framesOf b (done ++ own a f :: rest) = framesOf b done := by
  have hself : (own a f).isOf a = true := decide_eq_true rfl
  rcases h with h | h
  · obtain ⟨x, hx, hof⟩ := exists_isOf_of_framesOf hbegun
    obtain ⟨-, -, hacross⟩ := List.pairwise_append.1 h
    have hnot := hacross x hx (own a f) List.mem_cons_self hof
    rw [hself] at hnot
    cases hnot
  · obtain ⟨-, hlater, -⟩ := List.pairwise_append.1 h
    obtain ⟨hafter, -⟩ := List.pairwise_cons.1 hlater
    have hnone : framesOf b rest = [] := by
      by_contra hsome
      obtain ⟨x, hx, hof⟩ := exists_isOf_of_framesOf (List.length_pos_iff.2 hsome)
      rw [hafter x hx hself] at hof
      cases hof
    rw [framesOf_append, framesOf_own_of_ne (Ne.symm hne), hnone, List.append_nil]

end Traffic

namespace Reassembler
open Traffic

variable {κ : Type} {config : CanConfig}

/-- Takes in what passes on the bus. Frames of calls are converted for the bus first. -/
def hear (layout : Layout) (r : Reassembler) :
    Traffic κ → Except CanError ReassemblyEvent × Reassembler
  | .own _ f =>
    match f.toCan layout with
    | .error error => (.error error, r)
    | .ok frame => r.acceptCan frame
  | .foreign frame => r.acceptCan frame

/-- What the frame at an index is answered with, when all frames come in their order. -/
def answerAt (t : Transaction config) (index : Nat) : Except CanError ReassemblyEvent :=
  if index + 1 = t.frames.length then .ok (.delivered t.key t.payload) else .ok .pending

theorem hear_own {r : Reassembler} (hconfig : r.config = config) {t : Transaction config}
    {index : Nat} {f : Fragment} (hf : t.frames[index]? = some f) (call : κ) :
    r.hear config.layout (.own call f) = r.accept f := by
  obtain ⟨frame, hto, hof⟩ := Transaction.ofCan_toCan hf
  rw [hear, hto]
  simp only
  rw [acceptCan, hconfig, hof]

theorem acceptCan_undisturbed {r : Reassembler} {frame : CanFrame} {key : TransactionKey}
    (h : ∀ f, Fragment.ofCan r.config.layout frame = .ok f → ¬r.Disturbs f key) :
    (r.acceptCan frame).2.buffers.get? key = r.buffers.get? key ∧
      delivers key (r.acceptCan frame).1 = false := by
  rw [acceptCan]
  cases hof : Fragment.ofCan r.config.layout frame with
  | error error => exact ⟨rfl, rfl⟩
  | ok f => exact accept_undisturbed (h f hof)

/-- The frame that comes next is answered as it should be, and leaves an open buffer unless it is the
last one. -/
theorem accept_awaited {r : Reassembler} (hconfig : r.config = config) {t : Transaction config}
    {index : Nat} {f : Fragment} (hf : t.frames[index]? = some f) (hears : r.Hears t.dst)
    (hawaits : r.Awaits t index) :
    (r.accept f).1 = answerAt t index ∧
      (∀ key, key ≠ t.key → (r.accept f).2.buffers.get? key = r.buffers.get? key) ∧
      (index + 1 < t.frames.length →
        ∃ o, (r.accept f).2.buffers.get? t.key = some o ∧ o.Holds t (index + 1)) ∧
      (index + 1 = t.frames.length → (r.accept f).2.buffers.get? t.key = none) := by
  obtain ⟨hindex, -⟩ := List.getElem?_eq_some_iff.1 hf
  by_cases hlast : index + 1 = t.frames.length
  · rw [accept_end hf hconfig hears hawaits hlast, answerAt, if_pos hlast]
    refine ⟨rfl, fun key hkey => get?_close_of_ne r hkey, ?_, fun _ => get?_close_self r _⟩
    intro hmore
    omega
  · obtain ⟨o, hholds, haccept⟩ := accept_next hf hconfig hears hawaits (by omega)
    rw [haccept, answerAt, if_neg hlast]
    refine ⟨rfl, fun key hkey => get?_keep_of_ne r o hkey, ?_, fun h => absurd h hlast⟩
    exact fun _ => ⟨o, get?_keep_self r _ o, hholds⟩

variable [DecidableEq κ]

/-- The answers to the frames of a call, in their order. -/
def answersOf (call : κ) (log : List (Traffic κ × Except CanError ReassemblyEvent)) :
    List (Except CanError ReassemblyEvent) :=
  (log.filter fun entry => entry.1.isOf call).map (·.2)

theorem answersOf_concat_own (call : κ) (f : Fragment)
    (log : List (Traffic κ × Except CanError ReassemblyEvent))
    (answer : Except CanError ReassemblyEvent) :
    answersOf call (log ++ [(.own call f, answer)]) = answersOf call log ++ [answer] := by
  simp [answersOf, isOf]

theorem answersOf_concat_of_ne {call : κ} {x : Traffic κ} (h : x.isOf call = false)
    (log : List (Traffic κ × Except CanError ReassemblyEvent))
    (answer : Except CanError ReassemblyEvent) :
    answersOf call (log ++ [(x, answer)]) = answersOf call log := by
  simp [answersOf, h]

/-- What holds after `done`: buffers are open for the calls that are under way, with the frames that
have come, and for no others under their keys. -/
structure Caught (t : κ → Transaction config) (node : Option UInt32) (done : List (Traffic κ))
    (log : List (Traffic κ × Except CanError ReassemblyEvent)) (r : Reassembler) : Prop where
  config_eq : r.config = config
  node_eq : r.localNode = node
  opened : ∀ a, 0 < (framesOf a done).length → (framesOf a done).length < (t a).frames.length →
    ∃ o, r.buffers.get? (t a).key = some o ∧ o.Holds (t a) (framesOf a done).length
  closed : ∀ a, (framesOf a done).length = (t a).frames.length →
    (∀ b, (t b).key = (t a).key → 0 < (framesOf b done).length →
      (framesOf b done).length = (t b).frames.length) →
    r.buffers.get? (t a).key = none
  answers : ∀ a, answersOf a log = (List.range (framesOf a done).length).map (answerAt (t a))
  foreign : ∀ frame answer, (.foreign frame, answer) ∈ log →
    ∀ a, delivers (t a).key answer = false

variable {t : κ → Transaction config} {node : Option UInt32} {done rest : List (Traffic κ)}
  {log : List (Traffic κ × Except CanError ReassemblyEvent)} {r : Reassembler}

theorem Caught.awaits (h : Caught t node done log r) {a : κ} {f : Fragment}
    (hf : (t a).frames[(framesOf a done).length]? = some f) :
    r.Awaits (t a) (framesOf a done).length := by
  rcases Nat.eq_zero_or_pos (framesOf a done).length with hzero | hpos
  · exact .inl hzero
  · obtain ⟨hindex, -⟩ := List.getElem?_eq_some_iff.1 hf
    exact .inr (h.opened a hpos hindex)

section
variable {x : Traffic κ} {next : Reassembler} {a : κ}

/-- Traffic that is none of the call's and leaves its buffer alone keeps the call under way. -/
theorem Caught.opened_concat (h : Caught t node done log r) (hx : x.isOf a = false)
    (hbuffer : next.buffers.get? (t a).key = r.buffers.get? (t a).key)
    (hbegun : 0 < (framesOf a (done ++ [x])).length)
    (hunderway : (framesOf a (done ++ [x])).length < (t a).frames.length) :
    ∃ o, next.buffers.get? (t a).key = some o ∧
      o.Holds (t a) (framesOf a (done ++ [x])).length := by
  rw [framesOf_concat_of_ne hx] at hbegun hunderway ⊢
  rw [hbuffer]
  exact h.opened a hbegun hunderway

theorem Caught.closed_concat (h : Caught t node done log r)
    (hx : ∀ b, (t b).key = (t a).key → x.isOf b = false)
    (hbuffer : next.buffers.get? (t a).key = r.buffers.get? (t a).key)
    (hended : (framesOf a (done ++ [x])).length = (t a).frames.length)
    (hnone : ∀ b, (t b).key = (t a).key → 0 < (framesOf b (done ++ [x])).length →
      (framesOf b (done ++ [x])).length = (t b).frames.length) :
    next.buffers.get? (t a).key = none := by
  rw [framesOf_concat_of_ne (hx a rfl)] at hended
  rw [hbuffer]
  refine h.closed a hended ?_
  intro b hkey hbegun
  have hcount := hnone b hkey
  rw [framesOf_concat_of_ne (hx b hkey)] at hcount
  exact hcount hbegun

end

theorem Caught.own (h : Caught t node done log r) (hears : ∀ a, r.Hears (t a).dst) {a : κ}
    {f : Fragment} (htrace : ∀ b, framesOf b (done ++ .own a f :: rest) = (t b).frames)
    (hapart : ∀ b, b ≠ a → (t b).key = (t a).key →
      Precedes (done ++ .own a f :: rest) a b ∨ Precedes (done ++ .own a f :: rest) b a) :
    Caught t node (done ++ [.own a f])
      (log ++ [(.own a f, (r.hear config.layout (.own a f)).1)])
      (r.hear config.layout (.own a f)).2 := by
  have hf : (t a).frames[(framesOf a done).length]? = some f := by
    rw [← htrace a, framesOf_append, framesOf_own_self]
    simp
  have hof : ∀ b, b ≠ a → (Traffic.own a f).isOf b = false := fun b hb =>
    decide_eq_false (Ne.symm hb)
  have hwhole : ∀ b, b ≠ a → (t b).key = (t a).key → 0 < (framesOf b done).length →
      (framesOf b done).length = (t b).frames.length := by
    intro b hb hkey hbegun
    rw [← htrace b, complete_of_precedes hb (hapart b hb hkey) hbegun]
  rw [hear_own h.config_eq hf a]
  obtain ⟨hanswer, hothers, hmore, hlast⟩ := accept_awaited h.config_eq hf (hears a) (h.awaits hf)
  obtain ⟨hconfig, hnode⟩ := (accept_effect r f).settings_eq
  refine ⟨hconfig.trans h.config_eq, hnode.trans h.node_eq, ?_, ?_, ?_, ?_⟩
  · intro b hbegun hunderway
    by_cases hb : b = a
    · subst hb
      rw [framesOf_concat_self, List.length_append, List.length_singleton] at hunderway ⊢
      exact hmore hunderway
    · have hkey : (t b).key ≠ (t a).key := by
        intro hkey
        rw [framesOf_concat_of_ne (hof b hb)] at hbegun hunderway
        exact Nat.ne_of_lt hunderway (hwhole b hb hkey hbegun)
      exact h.opened_concat (hof b hb) (hothers _ hkey) hbegun hunderway
  · intro b hended hnone
    by_cases hkey : (t b).key = (t a).key
    · have hend := hnone a hkey.symm (by rw [framesOf_concat_self]; simp)
      rw [framesOf_concat_self, List.length_append, List.length_singleton] at hend
      rw [hkey]
      exact hlast hend
    · have hne : ∀ c, (t c).key = (t b).key → (Traffic.own a f).isOf c = false := by
        intro c hc
        refine hof c ?_
        rintro rfl
        exact hkey hc.symm
      exact h.closed_concat hne (hothers _ hkey) hended hnone
  · intro b
    by_cases hb : b = a
    · subst hb
      rw [answersOf_concat_own, h.answers, framesOf_concat_self, hanswer, List.length_append,
        List.length_singleton, List.range_succ, List.map_append]
      rfl
    · rw [answersOf_concat_of_ne (hof b hb), h.answers, framesOf_concat_of_ne (hof b hb)]
  · intro frame answer hmem
    have hold : (Traffic.foreign frame, answer) ∈ log := by simpa using hmem
    exact h.foreign frame answer hold

/-- A frame of no call, that disturbs none, changes nothing for the calls. -/
theorem Caught.strange (h : Caught t node done log r) {frame : CanFrame}
    (hframe : ∀ f, Fragment.ofCan config.layout frame = .ok f → ∀ a, ¬r.Disturbs f (t a).key) :
    Caught t node (done ++ [.foreign frame])
      (log ++ [(.foreign frame, (r.acceptCan frame).1)]) (r.acceptCan frame).2 := by
  obtain ⟨hconfig, hnode⟩ := acceptCan_settings r frame
  have hbuffers : ∀ a, (r.acceptCan frame).2.buffers.get? (t a).key = r.buffers.get? (t a).key ∧
      delivers (t a).key (r.acceptCan frame).1 = false := by
    intro a
    refine acceptCan_undisturbed fun f hf => hframe f ?_ a
    rwa [h.config_eq] at hf
  refine ⟨hconfig.trans h.config_eq, hnode.trans h.node_eq, ?_, ?_, ?_, ?_⟩
  · intro a hbegun hunderway
    exact h.opened_concat rfl (hbuffers a).1 hbegun hunderway
  · intro a hended hnone
    exact h.closed_concat (fun _ _ => rfl) (hbuffers a).1 hended hnone
  · intro a
    rw [answersOf_concat_of_ne rfl, h.answers, framesOf_concat_of_ne rfl]
  · intro other answer hmem a
    rcases List.mem_append.1 hmem with hold | hnew
    · exact h.foreign other answer hold a
    · cases List.mem_singleton.1 hnew
      exact (hbuffers a).2

theorem caught_run (hconfig : r.config = config) (hears : ∀ a, r.Hears (t a).dst)
    (htrace : ∀ a, framesOf a (done ++ rest) = (t a).frames)
    (hapart : ∀ a b, a ≠ b → (t a).key = (t b).key →
      Precedes (done ++ rest) a b ∨ Precedes (done ++ rest) b a)
    (hforeign : ∀ frame, .foreign frame ∈ done → ∀ f, Fragment.ofCan config.layout frame = .ok f →
      ∀ a, ¬r.Disturbs f (t a).key) :
    Caught t r.localNode done (runLog (hear config.layout) r done).1
      (runLog (hear config.layout) r done).2 := by
  induction done using List.reverseRecOn generalizing rest with
  | nil =>
    refine ⟨hconfig, rfl, ?_, ?_, fun _ => rfl, by simp [runLog]⟩
    · intro a hbegun
      cases hbegun
    · intro a hended
      exact absurd hended (Nat.ne_of_lt (t a).length_frames_pos)
  | append_singleton done x ih =>
    rw [List.append_assoc, List.singleton_append] at htrace hapart
    have hdone := ih htrace hapart fun frame hframe => hforeign frame (List.mem_append_left _ hframe)
    have hlocal := hdone.node_eq
    rw [runLog_concat]
    cases x with
    | own a f =>
      refine hdone.own ?_ htrace fun b hb hkey => hapart a b (Ne.symm hb) hkey.symm
      intro b
      rw [Hears, hlocal]
      exact hears b
    | foreign frame =>
      refine hdone.strange ?_
      intro f hf a hdisturbs
      have hhears : r.Hears f.identifier.dst := by
        have hheard := hdisturbs.hears
        rw [Hears, hlocal] at hheard
        exact hheard
      exact hforeign frame (List.mem_append_right _ (List.mem_singleton_self _)) f hf a
        ⟨hhears, hdisturbs.type_ne, hdisturbs.affected_eq⟩

theorem map_answerAt (t : Transaction config) :
    (List.range t.frames.length).map (answerAt t) =
      List.replicate (t.frames.length - 1) (.ok .pending) ++
        [.ok (.delivered t.key t.payload)] := by
  have hpos := t.length_frames_pos
  obtain ⟨n, hn⟩ : ∃ n, t.frames.length = n + 1 := ⟨t.frames.length - 1, by omega⟩
  have hbefore : (List.range n).map (answerAt t) = List.replicate n (.ok .pending) := by
    rw [List.eq_replicate_iff]
    refine ⟨by simp, ?_⟩
    intro answer hanswer
    obtain ⟨i, hi, rfl⟩ := List.mem_map.1 hanswer
    have hlt := List.mem_range.1 hi
    rw [answerAt, if_neg (by omega)]
  have hlast : answerAt t n = .ok (.delivered t.key t.payload) := by rw [answerAt, if_pos hn.symm]
  rw [hn, Nat.add_sub_cancel, List.range_succ, List.map_append, hbefore, List.map_singleton, hlast]

end Reassembler

section Nodes
open Traffic Reassembler

variable {ν : Type} {config : CanConfig} {node : ν → UInt32}

abbrev CallOf (calls : ∀ v, Calls config (node v)) : Type :=
  Σ v, Fin (calls v).transactions.length

def transactionOf {calls : ∀ v, Calls config (node v)} (c : CallOf calls) : Transaction config :=
  (calls c.1).transactions[c.2]

/-- Two calls have one key only if they are calls of one fragmenter, a whole round of its counter or
more apart. -/
theorem apart_of_key_eq (hnode : Function.Injective node) {calls : ∀ v, Calls config (node v)}
    {a b : CallOf calls} (h : (transactionOf a).key = (transactionOf b).key) :
    ∃ (v : ν) (j k : Fin (calls v).transactions.length), a = ⟨v, j⟩ ∧ b = ⟨v, k⟩ ∧
      (j < k → config.layout.transactionWrap ≤ k.val - j.val) ∧
      (k < j → config.layout.transactionWrap ≤ j.val - k.val) := by
  obtain ⟨v, j⟩ := a
  obtain ⟨w, k⟩ := b
  have hsrc : (transactionOf ⟨v, j⟩ : Transaction config).src = (transactionOf ⟨w, k⟩).src :=
    congrArg TransactionKey.src h
  have hv : (transactionOf ⟨v, j⟩ : Transaction config).src = node v :=
    (calls v).src_eq _ (List.getElem_mem _)
  have hw : (transactionOf ⟨w, k⟩ : Transaction config).src = node w :=
    (calls w).src_eq _ (List.getElem_mem _)
  have hvw : v = w := hnode (by rw [← hv, ← hw, hsrc])
  subst hvw
  have hnumber : (transactionOf ⟨v, j⟩ : Transaction config).number =
      (transactionOf ⟨v, k⟩).number := by
    apply UInt64.toNat_inj.1
    rw [← Transaction.toNat_transaction, ← Transaction.toNat_transaction, h]
  have hj : (calls v).transactions[j.val]? = some (transactionOf ⟨v, j⟩) :=
    List.getElem?_eq_getElem j.isLt
  have hk : (calls v).transactions[k.val]? = some (transactionOf ⟨v, k⟩) :=
    List.getElem?_eq_getElem k.isLt
  exact ⟨v, j, k, rfl, rfl, fun hjk => (calls v).wrap_le_of_number_eq hjk hj hk hnumber.symm,
    fun hkj => (calls v).wrap_le_of_number_eq hkj hk hj hnumber⟩

/-- Fragmenters at different nodes send over one bus, and nothing is lost. Calls of one fragmenter
may overlap as long as they are less than a round of its counter apart. Then each payload is handed
over once, with the last of its frames, whatever the reassembler held before. -/
theorem delivers_every_payload [DecidableEq ν] (hnode : Function.Injective node)
    (calls : ∀ v, Calls config (node v)) {r : Reassembler} (hconfig : r.config = config)
    (hears : ∀ c : CallOf calls, r.Hears (transactionOf c).dst) {trace : List (Traffic (CallOf calls))}
    (htrace : ∀ c, framesOf c trace = (transactionOf c).frames)
    (hoverlap : ∀ v (j k : Fin (calls v).transactions.length), j < k →
      config.layout.transactionWrap ≤ k.val - j.val →
      Precedes trace ⟨v, j⟩ ⟨v, k⟩ ∨ Precedes trace ⟨v, k⟩ ⟨v, j⟩)
    (hforeign : ∀ frame, .foreign frame ∈ trace → ∀ f, Fragment.ofCan config.layout frame = .ok f →
      ∀ c : CallOf calls, ¬r.Disturbs f (transactionOf c).key) :
    let run := runLog (hear config.layout) r trace
    (∀ c, answersOf c run.1 =
        List.replicate ((transactionOf c).frames.length - 1) (.ok .pending) ++
          [.ok (.delivered (transactionOf c).key (transactionOf c).payload)] ∧
      run.2.buffers.get? (transactionOf c).key = none) ∧
    ∀ frame answer, (.foreign frame, answer) ∈ run.1 →
      ∀ c : CallOf calls, delivers (transactionOf c).key answer = false := by
  have hapart : ∀ a b : CallOf calls, a ≠ b → (transactionOf a).key = (transactionOf b).key →
      Precedes trace a b ∨ Precedes trace b a := by
    intro a b hne hkey
    obtain ⟨v, j, k, rfl, rfl, hjk, hkj⟩ := apart_of_key_eq hnode hkey
    rcases Nat.lt_trichotomy j.val k.val with hlt | heq | hgt
    · exact hoverlap v j k hlt (hjk hlt)
    · exact absurd (congrArg (Sigma.mk v) (Fin.ext heq)) hne
    · exact (hoverlap v k j hgt (hkj hgt)).symm
  rw [← List.append_nil trace] at htrace hapart
  have hdone := caught_run hconfig hears htrace hapart hforeign
  rw [List.append_nil] at htrace
  refine ⟨?_, hdone.foreign⟩
  intro c
  have hended : ∀ a, (framesOf a trace).length = (transactionOf a).frames.length := by
    intro a
    rw [htrace]
  refine ⟨?_, hdone.closed c (hended c) fun b _ _ => hended b⟩
  rw [hdone.answers, hended, map_answerAt]

/-- One call at each of two nodes. -/
def twoCalls (v : Bool) : Calls ⟨.extended, 2⟩ (if v then 1 else 3) where
  transactions := [if v then .threeBytes else .oneByte]
  src_eq := by cases v <;> decide
  chained := .singleton _

def callAt (v : Bool) : CallOf twoCalls := ⟨v, ⟨0, Nat.one_pos⟩⟩

/-- The frame of one node comes between those of the other. -/
theorem delivers_twoCalls :
    let trace : List (Traffic (CallOf twoCalls)) :=
      [.own (callAt true) ⟨⟨1, 2, .start, 1, 0⟩, [1, 2]⟩,
        .own (callAt false) ⟨⟨3, 2, .start, 0, 0⟩, [9]⟩,
        .own (callAt true) ⟨⟨1, 2, .last, 0, 0⟩, [3]⟩]
    let run := runLog (hear Layout.extended) ⟨⟨.extended, 2⟩, none, {}⟩ trace
    answersOf (callAt true) run.1 = [.ok .pending, .ok (.delivered ⟨1, 2, 0⟩ [1, 2, 3])] ∧
      answersOf (callAt false) run.1 = [.ok (.delivered ⟨3, 2, 0⟩ [9])] ∧
      run.2.buffers.get? ⟨1, 2, 0⟩ = none := by
  intro trace run
  have hnode : Function.Injective fun v : Bool => if v then (1 : UInt32) else 3 := by
    intro v w
    cases v <;> cases w <;> simp
  have hcall : ∀ c : CallOf twoCalls, c = callAt c.1 := by
    rintro ⟨v, k⟩
    exact congrArg (Sigma.mk v) (Fin.ext (Nat.lt_one_iff.1 k.isLt))
  have htrace : ∀ c, framesOf c trace = (transactionOf c).frames := by
    intro c
    rw [hcall c]
    cases c.1 <;> decide
  have halone : ∀ v (j k : Fin (twoCalls v).transactions.length), ¬j < k := by
    intro v j k
    rw [Fin.lt_def, Nat.lt_one_iff.1 k.isLt]
    exact Nat.not_lt_zero _
  have hdelivers := delivers_every_payload hnode twoCalls
    (show Reassembler.config ⟨⟨.extended, 2⟩, none, {}⟩ = _ from rfl) (fun _ => rfl) htrace
    (fun v j k hjk => absurd hjk (halone v j k)) (by simp [trace])
  exact ⟨(hdelivers.1 (callAt true)).1, (hdelivers.1 (callAt false)).1,
    (hdelivers.1 (callAt true)).2⟩

end Nodes
end SpaceLink
