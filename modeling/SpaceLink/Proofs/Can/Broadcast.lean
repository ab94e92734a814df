import Mathlib.Data.List.Induction
import SpaceLink.Proofs.Can.BusTap
import SpaceLink.Proofs.Run

/-! # What a tap of the loopback bus gets

Taps come and go and the loss rule changes while frames are sent. The frames that a tap has received
and those that wait for it are the ones that others sent while it took part in the bus and that were
not lost, in the order in which they were sent. A tap that was shut still hands out what waits, and
then reports the end.
-/
namespace SpaceLink

namespace LoopbackBus
open BusLog

variable {bus : LoopbackBus}

/-- The bus is as the log of its run says. -/
structure Recorded (log : BusLog) (bus : LoopbackBus) : Prop where
  numbered : bus.Numbered
  rule_eq : bus.loss = log.rule
  offered_eq : bus.loss.isSome → bus.offered = log.underRule
  has_iff : ∀ {flag : BusTap → Bool} {stops : Nat → BusStep → Prop}, Tracks flag stops →
    ∀ n, Has flag bus n ↔ Since (stops n) n log

theorem recorded_nil : Recorded [] {} where
  numbered := rfl
  rule_eq := rfl
  offered_eq h := by cases h
  has_iff _ n := by simp [Has, Since]

theorem loss_step (h : bus.Numbered) (s : BusStep) :
    (bus.step s).2.loss = (setting (s, (bus.step s).1)).getD bus.loss ∧
      (bus.step s).2.offered = if (setting (s, (bus.step s).1)).isSome then [] else
        if bus.loss.isSome then (sentFrame (s, (bus.step s).1)).toList ++ bus.offered
        else bus.offered := by
  cases s with
  | send n frame =>
    cases hrunning : bus.isRunning n with
    | true => simp [step, send_of_running hrunning, setting, sentFrame]
    | false => simp [step, send_of_not_running hrunning, setting, sentFrame]
  | receive n => simp [step, receive?_eq h, setting, sentFrame]
  | openTap | shutdown n | drop n | setLoss rule =>
    simp [step, LoopbackBus.openTap, LoopbackBus.shutdown, LoopbackBus.drop, LoopbackBus.setLoss,
      modify, setting, sentFrame]

variable {log : BusLog}

theorem Recorded.step (h : Recorded log bus) (s : BusStep) :
    Recorded (log ++ [(s, (bus.step s).1)]) (bus.step s).2 := by
  obtain ⟨hloss, hoffered⟩ := loss_step h.numbered s
  refine ⟨h.numbered.step s, ?_, ?_, ?_⟩
  · rw [hloss, rule_concat, h.rule_eq]
  · intro hsome
    rw [hoffered, underRule_concat]
    split
    · rfl
    · rename_i hset
      have hnone : setting (s, (bus.step s).1) = none := Option.not_isSome_iff_eq_none.1 hset
      rw [hloss, hnone, Option.getD_none] at hsome
      rw [if_pos hsome, h.offered_eq hsome]
  · intro flag stops htracks n
    rw [has_step h.numbered htracks, h.has_iff htracks, since_concat]

theorem Recorded.isRunning_iff (h : Recorded log bus) (n : Nat) :
    bus.isRunning n = true ↔ Running n log :=
  (LoopbackBus.isRunning_iff h.numbered n).trans (h.has_iff tracks_isOpen n)

theorem Recorded.loses_iff (h : Recorded log bus) (frame : CanFrame) :
    bus.loses frame = true ↔ Loses log frame := by
  rw [Loses, ← h.rule_eq, loses]
  cases hloss : bus.loss with
  | none => simp
  | some rule => simp [h.offered_eq (by rw [hloss]; rfl)]

/-- What arrives is the frame of a send that is for the tap. -/
theorem Recorded.mem_arrivals (h : Recorded log bus) {n : Nat} {s : BusStep} {arrived : CanFrame} :
    arrived ∈ bus.arrivals n s ↔ ∃ sender : Nat,
      (s, (bus.step s).1) = (.send sender arrived, .sent (.ok ())) ∧ sender ≠ n ∧
        Attached n log ∧ ¬Loses log arrived := by
  have hattached : bus.taps[n]?.any (·.attached) = true ↔ Attached n log :=
    any_eq_true_iff.trans (h.has_iff tracks_attached n)
  cases s with
  | send sender frame =>
    rw [← h.loses_iff, ← hattached]
    cases hrunning : bus.isRunning sender with
    | true =>
      have hsent : (bus.step (.send sender frame)).1 = .sent (.ok ()) := by
        rw [step_send, send_of_running hrunning]
      rw [arrivals, hrunning, hsent]
      constructor
      · intro hmem
        split at hmem
        · rename_i hcarried
          obtain rfl := List.mem_singleton.1 hmem
          simp only [Bool.true_and, Bool.and_eq_true, Bool.not_eq_true', bne_iff_ne] at hcarried
          exact ⟨sender, rfl, Ne.symm hcarried.2.2, hcarried.2.1, by simp [hcarried.1]⟩
        · cases hmem
      · rintro ⟨other, heq, hne, hat, hkept⟩
        cases heq
        rw [if_pos (by simp [hat, hkept, Ne.symm hne])]
        exact List.mem_singleton_self _
    | false =>
      have hsent : (bus.step (.send sender frame)).1 = .sent (.error .busClosed) := by
        rw [step_send, send_of_not_running hrunning]
      simp [arrivals, hrunning, hsent]
  | _ => simp [arrivals]

theorem length_arrivals_le (n : Nat) (s : BusStep) : (bus.arrivals n s).length ≤ 1 := by
  cases s <;> simp only [arrivals] <;> try split
  all_goals simp

/-- What a tap has received and what waits there goes with the places of the log that are for it. -/
structure Hands (n : Nat) (log : BusLog) (bus : LoopbackBus) (places : List (Nat × CanFrame)) : Prop
    where
  addresses : Addresses n log places
  handed_prefix : received n log ++ bus.queue n <+: places.map (·.2)
  handed_eq : Held n log → received n log ++ bus.queue n = places.map (·.2)

/-- Places behind the log are added for what arrives. -/
theorem Recorded.addresses_step (h : Recorded log bus) {n : Nat} {places : List (Nat × CanFrame)}
    (hplaces : Addresses n log places) (s : BusStep) :
    Addresses n (log ++ [(s, (bus.step s).1)])
      (places ++ (bus.arrivals n s).map fun frame => (log.length, frame)) where
  ordered := by
    refine List.pairwise_append.2 ⟨hplaces.ordered, ?_, ?_⟩
    · have hlength : (bus.arrivals n s).length ≤ 1 := length_arrivals_le n s
      rcases harrivals : bus.arrivals n s with _ | ⟨frame, _ | _⟩
      · exact .nil
      · exact List.pairwise_singleton _ _
      · simp [harrivals] at hlength
    · intro place hplace later hlater
      obtain ⟨frame, -, rfl⟩ := List.mem_map.1 hlater
      exact ((hplaces.mem_iff place).1 hplace).lt_length
  mem_iff place := by
    obtain ⟨index, frame⟩ := place
    rw [List.mem_append, hplaces.mem_iff, isFor_concat, List.mem_map]
    refine or_congr_right ?_
    constructor
    · rintro ⟨arrived, hmem, heq⟩
      obtain ⟨rfl, rfl⟩ := Prod.mk.inj heq
      exact ⟨rfl, h.mem_arrivals.1 hmem⟩
    · rintro ⟨rfl, hsend⟩
      exact ⟨frame, h.mem_arrivals.2 hsend, rfl⟩

/-- Nothing is for a tap that has not been opened. -/
theorem Hands.eq_nil {n : Nat} {places : List (Nat × CanFrame)} (h : Hands n log bus places)
    (hnew : ¬Opened n log) : places = [] := by
  refine List.eq_nil_iff_forall_not_mem.2 fun place hplace => hnew ?_
  obtain ⟨sender, -, -, hattached, -⟩ := (h.addresses.mem_iff place).1 hplace
  exact hattached.opened.of_take

theorem queue_drop (h : bus.Numbered) (n : Nat) : (bus.step (.drop n)).2.queue n = [] := by
  rw [(h.step _).queue_eq, taps_step h (by simp), List.getElem?_map]
  cases htap : bus.taps[n]? with
  | none => rfl
  | some tap => simp [change, h.number_eq htap]

/-- A tap that is there is not opened again. -/
theorem ne_opened_of_has {n : Nat} (hthere : Has (fun _ => true) bus n) (s : BusStep) :
    (s, (bus.step s).1) ≠ (.openTap, .opened n) := by
  rintro heq
  obtain ⟨rfl, hanswer⟩ := Prod.mk.inj heq
  obtain ⟨tap, htap, -⟩ := hthere
  have hnumber : bus.taps.length = n := BusAnswer.opened.inj hanswer
  have hlt := (List.getElem?_eq_some_iff.1 htap).1
  omega

theorem not_opened_of_step (h : Recorded log bus) {n : Nat} {s : BusStep}
    (hs : (s, (bus.step s).1) = (.openTap, .opened n)) : ¬Opened n log :=
  fun hopened => ne_opened_of_has ((h.has_iff tracks_true n).2 hopened) s hs

theorem Hands.step {n : Nat} {places : List (Nat × CanFrame)} (h : Hands n log bus places)
    (hlog : Recorded log bus) (s : BusStep) :
    Hands n (log ++ [(s, (bus.step s).1)]) (bus.step s).2
      (places ++ (bus.arrivals n s).map fun frame => (log.length, frame)) := by
  have hframes : (places ++ (bus.arrivals n s).map fun frame => (log.length, frame)).map (·.2) =
      places.map (·.2) ++ bus.arrivals n s := by
    rw [List.map_append, List.map_map]
    exact congrArg _ (List.map_id _)
  have hconserved (hs : s ≠ .drop n) :
      received n (log ++ [(s, (bus.step s).1)]) ++ (bus.step s).2.queue n =
        received n log ++ bus.queue n ++ bus.arrivals n s := by
    rw [received_append, List.append_assoc, conserved_step hlog.numbered hs, List.append_assoc]
  refine ⟨hlog.addresses_step h.addresses s, ?_, ?_⟩
  · rw [hframes]
    by_cases hs : s = .drop n
    · subst hs
      have hreceived : received n [(.drop n, (bus.step (.drop n)).1)] = [] := rfl
      rw [received_append, hreceived, queue_drop hlog.numbered, List.append_nil, List.append_nil]
      exact (List.prefix_append _ _).trans (h.handed_prefix.trans (List.prefix_append _ _))
    · rw [hconserved hs]
      cases harrivals : bus.arrivals n s with
      | nil => simpa using h.handed_prefix
      | cons frame rest =>
        obtain ⟨-, -, -, hattached, -⟩ := hlog.mem_arrivals.1
          (show frame ∈ bus.arrivals n s by rw [harrivals]; exact List.mem_cons_self)
        simp only [h.handed_eq hattached.held, List.prefix_refl]
  · intro hheld
    rw [hframes]
    rcases (since_concat _).1 hheld with hopened | ⟨hbefore, hs⟩
    · have hempty := h.eq_nil (not_opened_of_step hlog hopened)
      have hnothing := h.handed_prefix
      rw [hempty] at hnothing ⊢
      obtain ⟨rfl, -⟩ := Prod.mk.inj hopened
      rw [hconserved (by simp), List.prefix_nil.1 hnothing]
      rfl
    · rw [hconserved hs, h.handed_eq hbefore]

theorem hands_nil (n : Nat) : Hands n [] {} [] where
  addresses := ⟨.nil, by simp [IsFor]⟩
  handed_prefix := List.prefix_refl _
  handed_eq _ := rfl

theorem recorded_run (steps : List BusStep) :
    Recorded (runLog step {} steps).1 (runLog step {} steps).2 := by
  induction steps using List.reverseRecOn with
  | nil => exact recorded_nil
  | append_singleton steps s ih =>
    rw [runLog_concat]
    exact ih.step s

theorem exists_hands_run (n : Nat) (steps : List BusStep) :
    ∃ places : List (Nat × CanFrame),
      Hands n (runLog step {} steps).1 (runLog step {} steps).2 places := by
  induction steps using List.reverseRecOn with
  | nil => exact ⟨[], hands_nil n⟩
  | append_singleton steps s ih =>
    obtain ⟨places, hplaces⟩ := ih
    rw [runLog_concat]
    exact ⟨_, hplaces.step (recorded_run steps) s⟩

/-- What the calls that receive from a shut tap give: the frames that wait, then failures. -/
def remains : List CanFrame → Nat → List (Except CanError CanFrame)
  | _, 0 => []
  | [], calls + 1 => .error .busClosed :: remains [] calls
  | frame :: rest, calls + 1 => .ok frame :: remains rest calls

theorem arrivals_of_detached {n : Nat} (hdetached : ¬Has (·.attached) bus n) (s : BusStep) :
    bus.arrivals n s = [] := by
  have hnot := Bool.eq_false_iff.2 (mt any_eq_true_iff.1 hdetached)
  cases s <;> simp [arrivals, hnot]

/-- A tap that takes no part gives the oldest frame that waits, or reports the end. -/
theorem receipts_receive (h : bus.Numbered) {n : Nat} (hdetached : ¬Has (·.attached) bus n) :
    receipts n [(.receive n, (bus.step (.receive n)).1)] =
      [some ((bus.queue n).head?.elim (.error .busClosed) .ok)] := by
  have hnot := Bool.eq_false_iff.2 (mt any_eq_true_iff.1 hdetached)
  cases hqueue : bus.queue n <;> simp [receipts, step, receive?_eq h, hqueue, hnot]

theorem receipts_of_ne {n : Nat} {s : BusStep} (hs : s ≠ .receive n) (answer : BusAnswer) :
    receipts n [(s, answer)] = [] := by
  cases s with
  | receive m =>
    have hm : m ≠ n := fun heq => hs (by rw [heq])
    cases answer <;> simp [receipts, hm]
  | _ => rfl

/-- What a call gives at a tap that takes no part is the first of what remains there. -/
theorem remains_step (h : bus.Numbered) {n : Nat} (hdetached : ¬Has (·.attached) bus n)
    {s : BusStep} (hs : s ≠ .drop n) (calls : Nat) :
    receipts n [(s, (bus.step s).1)] ++ (remains ((bus.step s).2.queue n) calls).map some =
      (remains (bus.queue n) ((receipts n [(s, (bus.step s).1)]).length + calls)).map some := by
  have hconserved := conserved_step h hs
  rw [arrivals_of_detached hdetached, List.append_nil, received] at hconserved
  by_cases hreceive : s = .receive n
  · subst hreceive
    rw [receipts_receive h hdetached] at hconserved ⊢
    rw [List.length_singleton, Nat.add_comm]
    cases hqueue : bus.queue n with
    | nil =>
      rw [hqueue] at hconserved
      have hempty : (bus.step (.receive n)).2.queue n = [] := hconserved
      rw [hempty]
      rfl
    | cons frame rest =>
      rw [hqueue] at hconserved
      have htaken : (bus.step (.receive n)).2.queue n = rest := (List.cons.inj hconserved).2
      rw [htaken]
      rfl
  · rw [receipts_of_ne hreceive] at hconserved ⊢
    have hsame : (bus.step s).2.queue n = bus.queue n := hconserved
    rw [hsame, List.length_nil, Nat.zero_add]
    rfl

/-- Whatever else happens, a tap that takes no part hands out what waits there and then reports the
end. -/
theorem receipts_of_detached (h : bus.Numbered) {n : Nat} (hthere : Has (fun _ => true) bus n)
    (hdetached : ¬Has (·.attached) bus n) {later : List BusStep}
    (hlater : ∀ s ∈ later, s ≠ .drop n) :
    let calls := receipts n (runLog step bus later).1
    calls = (remains (bus.queue n) calls.length).map some := by
  induction later generalizing bus with
  | nil => rfl
  | cons s later ih =>
    obtain ⟨hs, hrest⟩ := List.forall_mem_cons.1 hlater
    have hstill : ¬Has (·.attached) (bus.step s).2 n := fun hhas =>
      ((has_step h tracks_attached s n).1 hhas).elim (ne_opened_of_has hthere s)
        fun hbefore => hdetached hbefore.1
    have htail := ih (h.step s) ((has_step h tracks_true s n).2 (.inr ⟨hthere, id⟩)) hstill hrest
    have hlog : (runLog step bus (s :: later)).1 =
        [(s, (bus.step s).1)] ++ (runLog step (bus.step s).2 later).1 := rfl
    intro calls
    have hcalls : calls = receipts n [(s, (bus.step s).1)] ++
        receipts n (runLog step (bus.step s).2 later).1 := by
      rw [← receipts_append, ← hlog]
    rw [hcalls, List.length_append, ← remains_step h hdetached hs, ← htail]

/-- What a tap has received and what waits for it are the frames that others sent and no rule took
out while it took part. A rule is asked once about each frame that goes out under it. A tap sends
until it is shut, and from then on no send at it changes anything; what waits when it is shut is
still received, and then the end. -/
theorem broadcasts_in_order (steps : List BusStep) (n : Nat) :
    let log : BusLog := (runLog step {} steps).1
    let bus := (runLog step {} steps).2
    (∃ places : List (Nat × CanFrame), Addresses n log places ∧
      received n log <+: places.map (·.2) ∧
      (Held n log → received n log ++ bus.queue n = places.map (·.2))) ∧
    (bus.loss = log.rule ∧ (bus.loss.isSome → bus.offered = log.underRule)) ∧
    (∀ frame : CanFrame,
      (Running n log → (bus.send n frame).1 = .ok ()) ∧
      (¬Running n log → bus.send n frame = (.error .busClosed, bus))) ∧
    (Opened n log → ∀ later : List BusStep, (∀ s ∈ later, s ≠ .drop n) →
      let calls := receipts n (runLog step (bus.shutdown n) later).1
      calls = (remains (bus.queue n) calls.length).map some) := by
  intro log bus
  have hlog : Recorded log bus := recorded_run steps
  obtain ⟨places, hplaces⟩ := exists_hands_run n steps
  refine ⟨⟨places, hplaces.addresses, ?_, hplaces.handed_eq⟩,
    ⟨hlog.rule_eq, hlog.offered_eq⟩, ?_, ?_⟩
  · exact (List.prefix_append _ _).trans hplaces.handed_prefix
  · intro frame
    constructor
    · intro hrunning
      rw [send_of_running ((hlog.isRunning_iff n).2 hrunning)]
    · intro hrunning
      exact send_of_not_running
        (Bool.eq_false_iff.2 (mt (hlog.isRunning_iff n).1 hrunning)) frame
  · intro hopened later hlater
    have hnumbered := hlog.numbered.step (.shutdown n)
    have hthere := (has_step hlog.numbered tracks_true (.shutdown n) n).2
      (.inr ⟨(hlog.has_iff tracks_true n).2 hopened, id⟩)
    have hdetached : ¬Has (·.attached) (bus.shutdown n) n := fun hhas => by
      rcases (has_step hlog.numbered tracks_attached (.shutdown n) n).1 hhas with heq | ⟨-, hstops⟩
      · cases heq
      · exact hstops (.inl rfl)
    have hqueue : (bus.shutdown n).queue n = bus.queue n ++ [] :=
      conserved_step hlog.numbered (s := .shutdown n) (by simp)
    rw [List.append_nil] at hqueue
    rw [← hqueue]
    exact receipts_of_detached hnumbered hthere hdetached hlater

/-- The second of three frames is lost. The third is received behind the shutdown, but no frame that
is sent after it. -/
theorem broadcasts_past_shutdown :
    let steps : List BusStep := [.openTap, .openTap,
      .setLoss (some fun earlier _ => earlier.length == 1),
      .send 0 ⟨1, []⟩, .send 0 ⟨2, []⟩, .send 0 ⟨3, []⟩, .receive 1]
    let log : BusLog := (runLog step {} steps).1
    let bus := (runLog step {} steps).2
    (∃ places : List (Nat × CanFrame), Addresses 1 log places ∧
      places.map (·.2) = [⟨1, []⟩, ⟨3, []⟩]) ∧
    receipts 1 (runLog step (bus.shutdown 1) [.send 0 ⟨4, []⟩, .receive 1, .receive 1]).1 =
      [some (.ok ⟨3, []⟩), some (.error .busClosed)] := by
  intro steps log bus
  obtain ⟨⟨places, hplaces, -, hheld⟩, -, -, hshut⟩ := broadcasts_in_order steps 1
  have hopened : Held 1 log := ⟨[(.openTap, .opened 0)], _, rfl, by simp⟩
  refine ⟨⟨places, hplaces, (hheld hopened).symm⟩, ?_⟩
  exact hshut (Since.opened hopened) [.send 0 ⟨4, []⟩, .receive 1, .receive 1] (by simp)

end LoopbackBus
end SpaceLink
