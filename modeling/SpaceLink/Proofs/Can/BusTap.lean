import SpaceLink.Proofs.Can.BusLog

/-! # What a call does to the taps

A call changes every tap for itself. The flags of a tap go down with the calls that shut it or give
it up, and what waits there grows by the frames that are for it and shrinks by those it receives.
-/
namespace SpaceLink

namespace LoopbackBus
open BusLog

def step (bus : LoopbackBus) : BusStep → BusAnswer × LoopbackBus
  | .openTap => (.opened bus.openTap.1.number, bus.openTap.2)
  | .send n frame => (.sent (bus.send n frame).1, (bus.send n frame).2)
  | .receive n => (.received (bus.receive? n).1, (bus.receive? n).2)
  | .shutdown n => (.done, bus.shutdown n)
  | .drop n => (.done, bus.drop n)
  | .setLoss rule => (.done, bus.setLoss rule)

theorem step_send (bus : LoopbackBus) (n : Nat) (frame : CanFrame) :
    bus.step (.send n frame) = (.sent (bus.send n frame).1, (bus.send n frame).2) := rfl

/-- What waits at a tap. -/
def queue (bus : LoopbackBus) (tap : Nat) : List CanFrame :=
  ((bus.taps.find? (·.number = tap)).map (·.waiting)).getD []

/-- The taps stand in the order of their numbers. -/
def Numbered (bus : LoopbackBus) : Prop := bus.taps.map (·.number) = List.range bus.taps.length

variable {bus : LoopbackBus}

theorem Numbered.number_eq (h : bus.Numbered) {n : Nat} {tap : BusTap}
    (htap : bus.taps[n]? = some tap) : tap.number = n := by
  have hnumber := congrArg (·[n]?) h
  obtain ⟨hlt, -⟩ := List.getElem?_eq_some_iff.1 htap
  simpa [htap, List.getElem?_range hlt] using hnumber

theorem Numbered.eq_of_number (h : bus.Numbered) {n : Nat} {tap other : BusTap}
    (htap : bus.taps[n]? = some tap) (hmem : other ∈ bus.taps) (hnumber : other.number = n) :
    other = tap := by
  obtain ⟨i, hi⟩ := List.mem_iff_getElem?.1 hmem
  rw [← hnumber, h.number_eq hi, hi] at htap
  exact Option.some.inj htap

theorem Numbered.find?_eq (h : bus.Numbered) (n : Nat) :
    bus.taps.find? (·.number = n) = bus.taps[n]? := by
  cases htap : bus.taps[n]? with
  | none =>
    refine List.find?_eq_none.2 fun tap hmem => ?_
    obtain ⟨i, hi⟩ := List.mem_iff_getElem?.1 hmem
    have hlt := (List.getElem?_eq_some_iff.1 hi).1
    have hle := List.getElem?_eq_none_iff.1 htap
    simp only [h.number_eq hi, decide_eq_true_eq]
    omega
  | some tap =>
    obtain ⟨hlt, heq⟩ := List.getElem?_eq_some_iff.1 htap
    refine List.find?_eq_some_iff_getElem.2 ⟨by simp [h.number_eq htap], n, hlt, heq, ?_⟩
    intro i hi
    have hnumber := h.number_eq (List.getElem?_eq_getElem (Nat.lt_trans hi hlt))
    simp [hnumber, Nat.ne_of_lt hi]

theorem Numbered.queue_eq (h : bus.Numbered) (n : Nat) :
    bus.queue n = (bus.taps[n]?.map (·.waiting)).getD [] := by
  rw [queue, h.find?_eq]

/-- The rule that is set takes the frame out. -/
def loses (bus : LoopbackBus) (frame : CanFrame) : Bool :=
  match bus.loss with
  | none => false
  | some rule => rule bus.offered frame

def isRunning (bus : LoopbackBus) (n : Nat) : Bool :=
  bus.taps.any fun tap => tap.number = n && tap.isOpen

/-- What a call makes of a tap that is there. -/
def change (bus : LoopbackBus) (s : BusStep) (tap : BusTap) : BusTap :=
  match s with
  | .send n frame =>
    if bus.isRunning n && !bus.loses frame && (tap.attached && tap.number != n) then
      { tap with waiting := tap.waiting ++ [frame] }
    else tap
  | .receive n => if tap.number = n then { tap with waiting := tap.waiting.tail } else tap
  | .shutdown n => if tap.number = n then { tap with isOpen := false, attached := false } else tap
  | .drop n => if tap.number = n then { tap with attached := false, waiting := [] } else tap
  | .openTap | .setLoss _ => tap

theorem send_of_running {n : Nat} (h : bus.isRunning n = true) (frame : CanFrame) :
    bus.send n frame = (.ok (), { bus with
      taps := bus.taps.map (bus.change (.send n frame))
      offered := if bus.loss.isSome then frame :: bus.offered else bus.offered }) := by
  have hopen : (!(bus.taps.any fun p => p.number = n && p.isOpen)) = false := by
    rw [Bool.not_eq_false']
    exact h
  have hchange : bus.change (.send n frame) = fun tap =>
      if !bus.loses frame && (tap.attached && tap.number != n) then
        { tap with waiting := tap.waiting ++ [frame] }
      else tap := by
    funext tap
    rw [change, h, Bool.true_and]
  rw [send, hopen, hchange, loses]
  cases hloss : bus.loss with
  | none => simp [broadcast, hloss]
  | some rule => cases hlost : rule bus.offered frame <;> simp [broadcast, hlost]

theorem send_of_not_running {n : Nat} (h : bus.isRunning n = false) (frame : CanFrame) :
    bus.send n frame = (.error .busClosed, bus) := by
  have hshut : (!(bus.taps.any fun p => p.number = n && p.isOpen)) = true := by
    rw [Bool.not_eq_true']
    exact h
  rw [send, hshut]
  rfl

theorem map_receive_of_nil (h : bus.Numbered) {n : Nat} (hqueue : bus.queue n = []) :
    bus.taps.map (bus.change (.receive n)) = bus.taps := by
  have hsame : ∀ tap ∈ bus.taps, bus.change (.receive n) tap = tap := by
    intro tap hmem
    rw [change]
    split
    · rename_i hnumber
      obtain ⟨i, hi⟩ := List.mem_iff_getElem?.1 hmem
      rw [h.queue_eq, ← hnumber, h.number_eq hi, hi] at hqueue
      have hnil : tap.waiting = [] := hqueue
      rw [hnil, List.tail_nil, ← hnil]
    · rfl
  rw [List.map_congr_left hsame, List.map_id']

/-- A receiving call takes the oldest frame that waits, if one does. -/
theorem receive?_eq (h : bus.Numbered) (n : Nat) :
    bus.receive? n = (match bus.queue n with
      | frame :: _ => some (.ok frame)
      | [] => if bus.taps[n]?.any (·.attached) then none else some (.error .busClosed),
      { bus with taps := bus.taps.map (bus.change (.receive n)) }) := by
  have hqueue := h.queue_eq n
  rw [receive?, h.find?_eq]
  cases htap : bus.taps[n]? with
  | none =>
    have hnil : bus.queue n = [] := by rw [hqueue, htap]; rfl
    rw [hnil, map_receive_of_nil h hnil]
    rfl
  | some tap =>
    rw [htap] at hqueue
    cases hwaiting : tap.waiting with
    | nil =>
      have hnil : bus.queue n = [] := hqueue.trans hwaiting
      simp only [hwaiting, hnil, map_receive_of_nil h hnil, Option.any_some]
    | cons frame rest =>
      have hcons : bus.queue n = frame :: rest := hqueue.trans hwaiting
      have htake : bus.taps.map (bus.change (.receive n)) =
          bus.taps.map fun p => if p.number = n then { p with waiting := rest } else p := by
        refine List.map_congr_left fun other hmem => ?_
        rw [change]
        split
        · rename_i hnumber
          obtain rfl := h.eq_of_number htap hmem hnumber
          rw [hwaiting, List.tail_cons]
        · rfl
      simp only [hwaiting, hcons, htake, modify]

theorem taps_step (h : bus.Numbered) {s : BusStep} (hs : s ≠ .openTap) :
    (bus.step s).2.taps = bus.taps.map (bus.change s) := by
  cases s with
  | openTap => exact absurd rfl hs
  | send n frame =>
    cases hrunning : bus.isRunning n with
    | true => simp only [step, send_of_running hrunning]
    | false =>
      have hsame : bus.change (.send n frame) = id := by
        funext tap
        simp [change, hrunning]
      simp [step, send_of_not_running hrunning, hsame]
  | receive n => simp only [step, receive?_eq h]
  | shutdown n => rfl
  | drop n => rfl
  | setLoss rule => exact (List.map_id _).symm

theorem getElem?_openTap (n : Nat) : (bus.step .openTap).2.taps[n]? =
    if n = bus.taps.length then some { number := n } else bus.taps[n]? := by
  have htaps : (bus.step .openTap).2.taps = bus.taps ++ [{ number := bus.taps.length }] := rfl
  rw [htaps]
  rcases Nat.lt_trichotomy n bus.taps.length with hlt | rfl | hgt
  · rw [List.getElem?_append_left hlt, if_neg (Nat.ne_of_lt hlt)]
  · simp
  · rw [if_neg (Nat.ne_of_gt hgt), List.getElem?_eq_none (Nat.le_of_lt hgt)]
    exact List.getElem?_eq_none (by rw [List.length_append, List.length_singleton]; omega)

theorem number_change (s : BusStep) (tap : BusTap) : (bus.change s tap).number = tap.number := by
  cases s <;> simp only [change] <;> split <;> rfl

theorem Numbered.step (h : bus.Numbered) (s : BusStep) : (bus.step s).2.Numbered := by
  by_cases hs : s = .openTap
  · subst hs
    have htaps : (bus.step .openTap).2.taps = bus.taps ++ [{ number := bus.taps.length }] := rfl
    rw [Numbered, htaps, List.map_append, h, List.length_append, List.length_singleton,
      List.range_succ]
    rfl
  · have hnumbers : (bus.taps.map (bus.change s)).map (·.number) = bus.taps.map (·.number) := by
      rw [List.map_map]
      exact List.map_congr_left fun tap _ => number_change s tap
    rw [Numbered, taps_step h hs, hnumbers, h, List.length_map]

/-- A tap is there, and this flag of it is up. -/
def Has (flag : BusTap → Bool) (bus : LoopbackBus) (n : Nat) : Prop :=
  ∃ tap : BusTap, bus.taps[n]? = some tap ∧ flag tap = true

theorem any_eq_true_iff {flag : BusTap → Bool} {n : Nat} :
    bus.taps[n]?.any flag = true ↔ Has flag bus n := by
  rw [Has]
  cases bus.taps[n]? <;> simp

/-- A flag that is up at first and that only these calls at the tap take down. -/
structure Tracks (flag : BusTap → Bool) (stops : Nat → BusStep → Prop) : Prop where
  fresh : ∀ n, flag { number := n } = true
  waiting : ∀ tap waiting, flag { tap with waiting := waiting } = flag tap
  shutdown : ∀ tap, flag { tap with isOpen := false, attached := false } = true ↔
    flag tap = true ∧ ¬stops tap.number (.shutdown tap.number)
  drop : ∀ tap, flag { tap with attached := false, waiting := [] } = true ↔
    flag tap = true ∧ ¬stops tap.number (.drop tap.number)
  at_tap : ∀ n s, stops n s → s = .shutdown n ∨ s = .drop n

theorem tracks_true : Tracks (fun _ => true) fun _ _ => False :=
  ⟨fun _ => rfl, fun _ _ => rfl, by simp, by simp, fun _ _ => False.elim⟩

theorem tracks_isOpen : Tracks (·.isOpen) fun n s => s = .shutdown n :=
  ⟨fun _ => rfl, fun _ _ => rfl, by simp, by simp, fun _ _ => .inl⟩

theorem tracks_attached : Tracks (·.attached) fun n s => s = .shutdown n ∨ s = .drop n :=
  ⟨fun _ => rfl, fun _ _ => rfl, by simp, by simp, fun _ _ => id⟩

variable {flag : BusTap → Bool} {stops : Nat → BusStep → Prop}

theorem Tracks.change (h : Tracks flag stops) (s : BusStep) (tap : BusTap) :
    flag (bus.change s tap) = true ↔ flag tap = true ∧ ¬stops tap.number s := by
  have helse (hshut : s ≠ .shutdown tap.number) (hdrop : s ≠ .drop tap.number) :
      ¬stops tap.number s := fun hstops => (h.at_tap _ _ hstops).elim hshut hdrop
  cases s with
  | openTap => simp [LoopbackBus.change, helse]
  | setLoss rule => simp [LoopbackBus.change, helse]
  | send n frame =>
    rw [LoopbackBus.change]
    split <;> simp [h.waiting, helse]
  | receive n =>
    rw [LoopbackBus.change]
    split <;> simp [h.waiting, helse]
  | shutdown n =>
    rw [LoopbackBus.change]
    split
    · rename_i hnumber
      rw [← hnumber]
      exact h.shutdown tap
    · rename_i hnumber
      simp [helse (by simp [Ne.symm hnumber]) (by simp)]
  | drop n =>
    rw [LoopbackBus.change]
    split
    · rename_i hnumber
      rw [← hnumber]
      exact h.drop tap
    · rename_i hnumber
      simp [helse (by simp) (by simp [Ne.symm hnumber])]

theorem has_step (h : bus.Numbered) (htracks : Tracks flag stops) (s : BusStep) (n : Nat) :
    Has flag (bus.step s).2 n ↔
      (s, (bus.step s).1) = (.openTap, .opened n) ∨ Has flag bus n ∧ ¬stops n s := by
  by_cases hs : s = .openTap
  · subst hs
    have hnumber : (bus.step .openTap).1 = .opened bus.taps.length := rfl
    have hstops : ¬stops n .openTap := fun hstops => by
      rcases htracks.at_tap _ _ hstops with heq | heq <;> cases heq
    rw [Has, getElem?_openTap, hnumber]
    by_cases hn : n = bus.taps.length
    · simp [hn, htracks.fresh]
    · simp [hn, Ne.symm hn, Has, hstops]
  · have hentry : (s, (bus.step s).1) ≠ (.openTap, .opened n) := fun heq => hs (Prod.mk.inj heq).1
    simp only [Has, taps_step h hs, List.getElem?_map, Option.map_eq_some_iff]
    constructor
    · rintro ⟨-, ⟨tap, htap, rfl⟩, hflag⟩
      rw [htracks.change, h.number_eq htap] at hflag
      exact .inr ⟨⟨tap, htap, hflag.1⟩, hflag.2⟩
    · rintro (heq | ⟨⟨tap, htap, hflag⟩, hstops⟩)
      · exact absurd heq hentry
      · refine ⟨_, ⟨tap, htap, rfl⟩, ?_⟩
        rw [htracks.change, h.number_eq htap]
        exact ⟨hflag, hstops⟩

theorem isRunning_iff (h : bus.Numbered) (n : Nat) :
    bus.isRunning n = true ↔ Has (·.isOpen) bus n := by
  simp only [isRunning, List.any_eq_true, Bool.and_eq_true, decide_eq_true_eq]
  constructor
  · rintro ⟨tap, hmem, hnumber, hopen⟩
    obtain ⟨i, hi⟩ := List.mem_iff_getElem?.1 hmem
    obtain rfl := (h.number_eq hi).symm.trans hnumber
    exact ⟨tap, hi, hopen⟩
  · rintro ⟨tap, htap, hopen⟩
    exact ⟨tap, List.mem_of_getElem? htap, h.number_eq htap, hopen⟩

/-- The frames that a call adds to what waits at a tap. -/
def arrivals (bus : LoopbackBus) (n : Nat) : BusStep → List CanFrame
  | .send sender frame =>
    if bus.isRunning sender && !bus.loses frame &&
        (bus.taps[n]?.any (·.attached) && n != sender) then [frame]
    else []
  | _ => []

/-- What a tap gets and what the call leaves there is what waited and what arrives. -/
theorem waiting_change (h : bus.Numbered) {n : Nat} {tap : BusTap}
    (htap : bus.taps[n]? = some tap) {s : BusStep} (hs : s ≠ .drop n) :
    received n [(s, (bus.step s).1)] ++ (bus.change s tap).waiting =
      tap.waiting ++ bus.arrivals n s := by
  have hnumber := h.number_eq htap
  have hwaiting : bus.queue n = tap.waiting := by rw [h.queue_eq, htap]; rfl
  cases s with
  | openTap => simp [received, receipts, step, change, arrivals]
  | send sender frame =>
    simp only [change, arrivals, htap, Option.any_some, hnumber]
    split <;> simp [received, receipts, step]
  | receive m =>
    by_cases hm : m = n
    · subst hm
      cases hcons : tap.waiting <;>
        simp [received, receipts, step, receive?_eq h, hwaiting, hcons, htap, change, hnumber,
          arrivals]
    · simp [received, receipts, step, hm, change, hnumber, Ne.symm hm, arrivals]
  | shutdown m =>
    by_cases hm : n = m <;> simp [received, receipts, step, change, hnumber, hm, arrivals]
  | drop m =>
    have hm : n ≠ m := fun heq => hs (by rw [heq])
    simp [received, receipts, step, change, hnumber, hm, arrivals]
  | setLoss rule => simp [received, receipts, step, change, arrivals]

/-- Nothing comes of a tap that is not there. -/
theorem received_of_none (h : bus.Numbered) {n : Nat} (htap : bus.taps[n]? = none) (s : BusStep) :
    received n [(s, (bus.step s).1)] = [] := by
  have hnil : bus.queue n = [] := by rw [h.queue_eq, htap]; rfl
  cases s with
  | receive m =>
    by_cases hm : m = n <;> simp [received, receipts, step, receive?_eq h, hm, hnil, htap]
  | _ => simp [received, receipts]

/-- What a tap gets and what then waits is what waited and what arrives. -/
theorem conserved_step (h : bus.Numbered) {n : Nat} {s : BusStep} (hs : s ≠ .drop n) :
    received n [(s, (bus.step s).1)] ++ (bus.step s).2.queue n =
      bus.queue n ++ bus.arrivals n s := by
  by_cases hopen : s = .openTap
  · subst hopen
    rw [(h.step .openTap).queue_eq, h.queue_eq, getElem?_openTap]
    split
    · rename_i hn
      simp [hn, arrivals, received, receipts]
    · simp [arrivals, received, receipts]
  rw [(h.step s).queue_eq, h.queue_eq, taps_step h hopen, List.getElem?_map]
  cases htap : bus.taps[n]? with
  | none =>
    have hnone : bus.arrivals n s = [] := by cases s <;> simp [arrivals, htap]
    rw [received_of_none h htap, hnone]
    rfl
  | some tap => exact waiting_change h htap hs

end LoopbackBus
end SpaceLink
