import Mathlib.Algebra.Ring.Int.Defs
import Mathlib.Data.List.Nodup
import Mathlib.Data.Nat.ModEq
import SpaceLink.Proofs.Run
import SpaceLink.Proofs.SequenceCounter

/-! # Counters that clients share

Any number of clients move a counter and take values from the allocations they have got, at any time
and in any order. A run is their calls in the order in which they have hold of the counter. An
allocation gives the values that its move has passed over, whatever is called before they are taken,
and as long as nobody moves back, no value comes twice in one round.
-/
namespace SpaceLink

/-- A call of one of the clients. Allocations are numbered in the order in which they are made. -/
inductive CounterCall where
  | increment (delta : Int64)
  | next
  | take (allocation : Nat)
  deriving DecidableEq

namespace CounterCall

/-- How far the call moves the counter. -/
def move : CounterCall → Int
  | increment delta => delta.toInt
  | next => 1
  | take _ => 0

def allocates : CounterCall → Bool
  | increment _ => true
  | next | take _ => false

def movement (calls : List CounterCall) : Int := (calls.map move).sum

end CounterCall

inductive CounterAnswer where
  | allocated (allocation : Allocation)
  | next (value : UInt64)
  /-- Without a value the allocation is used up. -/
  | taken (value? : Option UInt64)

/-- The values that the counter has given away in an answer. What is taken from an allocation has
been given away with it. -/
def CounterAnswer.values : CounterAnswer → List UInt64
  | allocated allocation => allocation.toList
  | next value => [value]
  | taken _ => []

/-- A counter, and what is left of the allocations that have been made. -/
structure SharedCounter where
  counter : SequenceCounter
  held : List Allocation := []

namespace SharedCounter
open CounterCall

def step (s : SharedCounter) : CounterCall → CounterAnswer × SharedCounter
  | .increment delta =>
    let (allocation, counter) := s.counter.increment delta
    (.allocated allocation, ⟨counter, s.held ++ [allocation]⟩)
  | .next =>
    let (value, counter) := s.counter.next
    (.next value, ⟨counter, s.held⟩)
  | .take i =>
    match s.held[i]? with
    | none => (.taken none, s)
    | some allocation =>
      match allocation.next? with
      | none => (.taken none, s)
      | some (value, rest) => (.taken (some value), ⟨s.counter, s.held.set i rest⟩)

def log (s : SharedCounter) (calls : List CounterCall) : List (CounterCall × CounterAnswer) :=
  (runLog step s calls).1

def after (s : SharedCounter) (calls : List CounterCall) : SharedCounter :=
  (runLog step s calls).2

/-- What has been taken from an allocation, in the order of the log. -/
def takenFrom (i : Nat) (log : List (CounterCall × CounterAnswer)) : List UInt64 :=
  log.filterMap fun
    | (.take j, .taken value?) => if j = i then value? else none
    | _ => none

variable {s : SharedCounter} {call : CounterCall} {calls : List CounterCall}

theorem log_append (s : SharedCounter) (xs ys : List CounterCall) :
    s.log (xs ++ ys) = s.log xs ++ (s.after xs).log ys := by
  simp only [log, after, runLog_append]

theorem log_cons (s : SharedCounter) (call : CounterCall) (calls : List CounterCall) :
    s.log (call :: calls) = (call, (s.step call).1) :: (s.step call).2.log calls := rfl

theorem after_cons (s : SharedCounter) (call : CounterCall) (calls : List CounterCall) :
    s.after (call :: calls) = (s.step call).2.after calls := rfl

theorem counter_take (s : SharedCounter) (i : Nat) : (s.step (.take i)).2.counter = s.counter := by
  rw [step]
  split
  · rfl
  · split <;> rfl

theorem counter_step (s : SharedCounter) (call : CounterCall) :
    (s.step call).2.counter.wrap = s.counter.wrap ∧
      ((s.step call).2.counter.current.toNat : Int) =
        (s.counter.current.toNat + call.move) % (s.counter.wrap.toNat : Int) := by
  cases call with
  | increment delta => exact ⟨rfl, s.counter.current_increment delta⟩
  | next =>
    refine ⟨rfl, ?_⟩
    have hcurrent : (s.step .next).2.counter.current =
        valueAfter s.counter.wrap s.counter.current 0 := s.counter.current_next
    rw [hcurrent, toNat_valueAfter _ _ s.counter.wrap_pos, move]
    norm_cast
  | take i =>
    have hlt := UInt64.lt_iff_toNat_lt.1 s.counter.current_lt
    rw [counter_take, move, Int.add_zero, Int.emod_eq_of_lt (Int.natCast_nonneg _) (by omega)]
    exact ⟨rfl, rfl⟩

/-- A run moves the counter by the sum of its moves. -/
theorem counter_after (s : SharedCounter) (calls : List CounterCall) :
    (s.after calls).counter.wrap = s.counter.wrap ∧
      ((s.after calls).counter.current.toNat : Int) =
        (s.counter.current.toNat + movement calls) % (s.counter.wrap.toNat : Int) := by
  induction calls generalizing s with
  | nil =>
    have hlt := UInt64.lt_iff_toNat_lt.1 s.counter.current_lt
    refine ⟨rfl, ?_⟩
    rw [movement, List.map_nil, List.sum_nil, Int.add_zero,
      Int.emod_eq_of_lt (Int.natCast_nonneg _) (by omega)]
    rfl
  | cons call calls ih =>
    obtain ⟨hwrap, hcurrent⟩ := counter_step s call
    obtain ⟨hwraps, hcurrents⟩ := ih (s.step call).2
    refine ⟨hwraps.trans hwrap, ?_⟩
    rw [after_cons, hcurrents, hwrap, hcurrent, Int.emod_add_emod, Int.add_assoc]
    rfl

theorem length_held_step (s : SharedCounter) (call : CounterCall) :
    (s.step call).2.held.length = s.held.length + (if call.allocates then 1 else 0) := by
  cases call with
  | increment delta => exact List.length_append
  | next => rfl
  | take i =>
    rw [step]
    split
    · rfl
    · split
      · rfl
      · exact List.length_set

theorem length_held_after (s : SharedCounter) (calls : List CounterCall) :
    (s.after calls).held.length = s.held.length + calls.countP allocates := by
  induction calls generalizing s with
  | nil => rfl
  | cons call calls ih =>
    rw [after_cons, ih, length_held_step, List.countP_cons]
    omega

section Taking
variable {i : Nat} {a : Allocation}

/-- No other call touches an allocation. -/
theorem held_step_of_ne (hcall : call ≠ .take i) (h : s.held[i]? = some a) :
    (s.step call).2.held[i]? = some a := by
  cases call with
  | increment delta => exact List.getElem?_append_left (List.getElem?_eq_some_iff.1 h).1 ▸ h
  | next => exact h
  | take j =>
    have hne : j ≠ i := fun heq => hcall (heq ▸ rfl)
    rw [step]
    split
    · exact h
    · split
      · exact h
      · exact (List.getElem?_set_ne hne).trans h

theorem takenFrom_cons_of_ne (hcall : call ≠ .take i) (answer : CounterAnswer)
    (log : List (CounterCall × CounterAnswer)) :
    takenFrom i ((call, answer) :: log) = takenFrom i log := by
  apply List.filterMap_cons_none
  cases call with
  | increment delta | next => rfl
  | take j =>
    have hne : j ≠ i := fun heq => hcall (heq ▸ rfl)
    cases answer with
    | allocated _ | next _ => rfl
    | taken value? => exact if_neg hne

theorem takenFrom_cons_taken (i : Nat) (value? : Option UInt64)
    (log : List (CounterCall × CounterAnswer)) :
    takenFrom i ((.take i, .taken value?) :: log) = value?.toList ++ takenFrom i log := by
  cases value? with
  | none => exact List.filterMap_cons_none (if_pos rfl)
  | some value => exact List.filterMap_cons_some (if_pos rfl)

/-- However the calls of others come between, an allocation gives its values in order. -/
theorem takenFrom_log (h : s.held[i]? = some a) (calls : List CounterCall) :
    takenFrom i (s.log calls) = a.toList.take (calls.count (.take i)) := by
  induction calls generalizing s a with
  | nil => rfl
  | cons call calls ih =>
    rw [log_cons]
    by_cases hcall : call = .take i
    · subst hcall
      rw [List.count_cons_self, step, h]
      cases hnext : a.next? with
      | none =>
        simp only [hnext]
        rw [takenFrom_cons_taken, ih h, Allocation.toList_of_next?_eq_none hnext, List.take_nil,
          List.take_nil]
        rfl
      | some taken =>
        obtain ⟨value, rest⟩ := taken
        have hrest : (s.held.set i rest)[i]? = some rest :=
          List.getElem?_set_self (List.getElem?_eq_some_iff.1 h).1
        simp only [hnext]
        rw [takenFrom_cons_taken, ih (s := ⟨s.counter, s.held.set i rest⟩) hrest,
          Allocation.toList_of_next? hnext, List.take_succ_cons]
        rfl
    · rw [takenFrom_cons_of_ne hcall, ih (held_step_of_ne hcall h), List.count_cons_of_ne hcall]

/-- Nothing is taken from an allocation that is not made yet. -/
theorem takenFrom_log_of_le (h : s.held.length + calls.countP allocates ≤ i) :
    takenFrom i (s.log calls) = [] := by
  induction calls generalizing s with
  | nil => rfl
  | cons call calls ih =>
    rw [List.countP_cons] at h
    have hlater : (s.step call).2.held.length + calls.countP allocates ≤ i := by
      rw [length_held_step]
      omega
    rw [log_cons]
    by_cases hcall : call = .take i
    · subst hcall
      have hnone : s.held[i]? = none := List.getElem?_eq_none_iff.2 (by omega)
      have hanswer : (s.step (.take i)).1 = .taken none := by rw [step, hnone]
      rw [hanswer, takenFrom_cons_taken, ih hlater]
      rfl
    · rw [takenFrom_cons_of_ne hcall, ih hlater]

/-- An allocation of a run gives its values to those calls behind it that take from it. -/
theorem takenFrom_log_increment (s : SharedCounter) (hheld : s.held = [])
    (before later : List CounterCall) (delta : Int64) :
    takenFrom (before.countP allocates) (s.log (before ++ .increment delta :: later)) =
      ((s.after before).counter.increment delta).1.toList.take
        (later.count (.take (before.countP allocates))) := by
  have hlength := length_held_after s before
  rw [hheld, List.length_nil, Nat.zero_add] at hlength
  have hbefore : takenFrom (before.countP allocates) (s.log before) = [] :=
    takenFrom_log_of_le (by rw [hheld, List.length_nil, Nat.zero_add])
  have hmade : ((s.after before).step (.increment delta)).2.held[before.countP allocates]? =
      some ((s.after before).counter.increment delta).1 := by
    rw [← hlength]
    exact List.getElem?_concat_length
  rw [log_append, log_cons, takenFrom, List.filterMap_append]
  change takenFrom _ (s.log before) ++ takenFrom _ (_ :: _) = _
  rw [hbefore, List.nil_append,
    takenFrom_cons_of_ne (by simp : CounterCall.increment delta ≠ .take _), takenFrom_log hmade]

end Taking

section Rounds

/-- One round of the counter has no value twice. -/
theorem nodup_valueAfter {wrap : UInt64} (last : UInt64) (hw : 0 < wrap) {n : Nat}
    (hn : n ≤ wrap.toNat) : ((List.range n).map (valueAfter wrap last)).Nodup := by
  refine List.Nodup.map_on ?_ List.nodup_range
  intro i hi j hj heq
  rw [List.mem_range] at hi hj
  have hmod : last.toNat + 1 + i ≡ last.toNat + 1 + j [MOD wrap.toNat] := by
    rw [Nat.ModEq, ← toNat_valueAfter wrap last hw, ← toNat_valueAfter wrap last hw, heq]
  exact Nat.ModEq.eq_of_lt_of_lt (Nat.ModEq.add_left_cancel' _ hmod) (by omega) (by omega)

theorem values_step (s : SharedCounter) (hmove : 0 ≤ call.move) :
    (s.step call).1.values =
      (List.range call.move.toNat).map (valueAfter s.counter.wrap s.counter.current) := by
  cases call with
  | increment delta => exact s.counter.toList_increment_toNat delta
  | next => exact congrArg (fun value => [value]) s.counter.next_fst
  | take i =>
    have htaken : ∃ value?, (s.step (.take i)).1 = .taken value? := by
      rw [step]
      split
      · exact ⟨_, rfl⟩
      · split <;> exact ⟨_, rfl⟩
    obtain ⟨value?, hvalue⟩ := htaken
    rw [hvalue]
    rfl

/-- As long as nobody moves back, the values given away follow each other. -/
theorem values_log (s : SharedCounter) (hmoves : ∀ call ∈ calls, 0 ≤ call.move) :
    0 ≤ movement calls ∧ (s.log calls).flatMap (·.2.values) =
      (List.range (movement calls).toNat).map (valueAfter s.counter.wrap s.counter.current) := by
  induction calls generalizing s with
  | nil => exact ⟨Int.le_refl 0, rfl⟩
  | cons call calls ih =>
    obtain ⟨hmove, hlater⟩ := List.forall_mem_cons.1 hmoves
    obtain ⟨hwrap, hcurrent⟩ := counter_step s call
    obtain ⟨hnonneg, hvalues⟩ := ih (s.step call).2 hlater
    have hsum : movement (call :: calls) = call.move + movement calls := rfl
    have hplace : (s.step call).2.counter.current.toNat =
        (s.counter.current.toNat + call.move.toNat) % s.counter.wrap.toNat := by
      have hcast := Int.toNat_of_nonneg hmove
      apply Int.ofNat_inj.1
      rw [Int.natCast_mod, Int.natCast_add, hcast]
      exact hcurrent
    refine ⟨by omega, ?_⟩
    rw [log_cons, List.flatMap_cons, hvalues, values_step s hmove, hsum, hwrap,
      Int.toNat_add hmove hnonneg, List.range_add, List.map_append, List.map_map]
    congr 1
    apply List.map_congr_left
    intro j _
    exact valueAfter_add s.counter.wrap_pos hplace j

end Rounds

end SharedCounter

/-! ## Arithmetic that fits its words

The operations behind a call once more, in words of 64 bits and signed ones of 128 bits. They give
nothing where a result does not fit or is divided by zero, and so show that this never happens.
-/
namespace Exact

def add? (a b : UInt64) : Option UInt64 :=
  if a.toNat + b.toNat < 2 ^ 64 then some (a + b) else none

def sub? (a b : UInt64) : Option UInt64 := if b ≤ a then some (a - b) else none

def mod? (a b : UInt64) : Option UInt64 := if b = 0 then none else some (a % b)

def addWide? (a b : Int) : Option Int :=
  if -2 ^ 127 ≤ a + b ∧ a + b < 2 ^ 127 then some (a + b) else none

def modWide? (a b : Int) : Option Int := if b = 0 then none else some (a % b)

def word? (n : Int) : Option UInt64 :=
  if 0 ≤ n ∧ n < 2 ^ 64 then some (UInt64.ofNat n.toNat) else none

/-- The allocation of a move, and where the counter stands then. -/
def increment? (c : SequenceCounter) (delta : Int64) : Option (Allocation × UInt64) := do
  let sum ← addWide? c.current.toNat delta.toInt
  let moved ← modWide? sum c.wrap.toNat
  let current ← word? moved
  return (⟨c.wrap, c.current, (word? delta.toInt).getD 0⟩, current)

def next? (c : SequenceCounter) : Option UInt64 := do
  let sum ← add? c.current 1
  mod? sum c.wrap

/-- The next value of an allocation, unless it is used up. -/
def taken? (a : Allocation) : Option (Option (UInt64 × Allocation)) :=
  if a.remaining = 0 then some none
  else do
    let remaining ← sub? a.remaining 1
    let sum ← add? a.last 1
    let value ← mod? sum a.wrap
    return some (value, ⟨a.wrap, value, remaining⟩)

theorem succ_mod? {last wrap : UInt64} (h : last < wrap) :
    (do let sum ← add? last 1; mod? sum wrap) = some ((last + 1) % wrap) := by
  have hlt := UInt64.lt_iff_toNat_lt.1 h
  have hwrap := wrap.toNat_lt
  have hsum : last.toNat + (1 : UInt64).toNat < 2 ^ 64 := by
    rw [UInt64.toNat_one]
    omega
  have hne : wrap ≠ 0 := by
    rintro rfl
    rw [UInt64.toNat_zero] at hlt
    omega
  rw [add?, if_pos hsum]
  exact if_neg hne

theorem increment?_eq (c : SequenceCounter) (delta : Int64) :
    increment? c delta = some ((c.increment delta).1, (c.increment delta).2.current) := by
  have hcurrent := c.current.toNat_lt
  have hwrap := c.wrap.toNat_lt
  have hlo := delta.le_toInt
  have hhi := delta.toInt_lt
  obtain ⟨hnonneg, hlt⟩ := c.emod_wrap_bounds (c.current.toNat + delta.toInt)
  have hmoved : UInt64.ofNat ((c.current.toNat + delta.toInt) % (c.wrap.toNat : Int)).toNat =
      (c.increment delta).2.current := by
    apply UInt64.toNat_inj.1
    rw [UInt64.toNat_ofNat', Nat.mod_eq_of_lt (by omega), ← Int.ofNat_inj, c.current_increment,
      Int.toNat_of_nonneg hnonneg]
  have hremaining : (word? delta.toInt).getD 0 = UInt64.ofNat delta.toInt.toNat := by
    rw [word?]
    split
    · rfl
    · rw [Int.toNat_of_nonpos (by omega)]
      rfl
  rw [increment?, addWide?, if_pos (by omega)]
  simp only [Option.bind_eq_bind, Option.bind_some]
  rw [modWide?, if_neg (by omega), Option.bind_some, word?, if_pos (by omega), hmoved, hremaining]
  rfl

theorem next?_eq (c : SequenceCounter) : next? c = some c.next.1 := succ_mod? c.current_lt

theorem taken?_eq {a : Allocation} (h : a.last < a.wrap) : taken? a = some a.next? := by
  rw [taken?, Allocation.next?]
  split
  · rfl
  · rename_i hne
    have hvalue := succ_mod? h
    rw [sub?, if_pos (Allocation.one_le_remaining hne)]
    simp only [Option.bind_eq_bind, Option.bind_some] at hvalue ⊢
    rw [← Option.bind_assoc, hvalue]
    rfl

end Exact

namespace SharedCounter
open CounterCall

/-- No operation of the call passes the end of its word. -/
def Fits (s : SharedCounter) : CounterCall → Prop
  | .increment delta => Exact.increment? s.counter delta =
      some ((s.counter.increment delta).1, (s.counter.increment delta).2.current)
  | .next => Exact.next? s.counter = some s.counter.next.1
  | .take i => ∀ a, s.held[i]? = some a → Exact.taken? a = some a.next?

/-- What is left of an allocation stands below its wrap, as a counter does. -/
def Bounded (s : SharedCounter) : Prop := ∀ a ∈ s.held, a.last < a.wrap

theorem Bounded.step {s : SharedCounter} (h : s.Bounded) (call : CounterCall) :
    (s.step call).2.Bounded := by
  cases call with
  | increment delta =>
    intro a ha
    rcases List.mem_append.1 ha with ha | ha
    · exact h a ha
    · rw [List.mem_singleton.1 ha]
      exact s.counter.current_lt
  | next => exact h
  | take i =>
    rw [SharedCounter.step]
    split
    · exact h
    · rename_i allocation hheld
      split
      · exact h
      · rename_i value rest hnext
        intro a ha
        rcases List.mem_or_eq_of_mem_set ha with ha | rfl
        · exact h a ha
        · have hlt := h _ (List.mem_of_getElem? hheld)
          rw [Allocation.next?] at hnext
          split at hnext
          · cases hnext
          · cases hnext
            exact UInt64.mod_lt _ (UInt64.lt_of_le_of_lt UInt64.zero_le hlt)

theorem Bounded.fits {s : SharedCounter} (h : s.Bounded) (call : CounterCall) : s.Fits call := by
  cases call with
  | increment delta => exact Exact.increment?_eq s.counter delta
  | next => exact Exact.next?_eq s.counter
  | take i => exact fun a ha => Exact.taken?_eq (h a (List.mem_of_getElem? ha))

theorem bounded_after (c : SequenceCounter) (calls : List CounterCall) :
    (after { counter := c } calls).Bounded :=
  runLog_invariant step (fun _ call h => h.step call) (List.forall_mem_nil _) calls

/-- What clients get from a counter that nobody has called before. -/
structure HandsOut (c : SequenceCounter) (calls : List CounterCall) : Prop where
  current_eq : ((after { counter := c } calls).counter.current.toNat : Int) =
    (c.current.toNat + movement calls) % (c.wrap.toNat : Int)
  current_lt : (after { counter := c } calls).counter.current < c.wrap
  fits : ∀ before call later, calls = before ++ call :: later →
    (after { counter := c } before).Fits call
  /-- An increment yields the values that it moves over, and they are what those calls get that take
  from its allocation, as many as there are of either. -/
  increment : ∀ before delta later, calls = before ++ .increment delta :: later →
    let old := (after { counter := c } before).counter
    let values := (old.increment delta).1.toList
    values.map UInt64.toNat =
        (List.range' 1 delta.toInt.toNat).map (fun j => (old.current.toNat + j) % c.wrap.toNat) ∧
      (0 < delta.toInt → values.getLast? = some (old.increment delta).2.current) ∧
      takenFrom (before.countP allocates) (log { counter := c } calls) =
        values.take (later.count (.take (before.countP allocates)))
  next : ∀ before later, calls = before ++ .next :: later →
    let old := (after { counter := c } before).counter
    old.next.1.toNat = (old.current.toNat + 1) % c.wrap.toNat ∧ old.next.1 = old.next.2.current
  nodup : ∀ before row later, calls = before ++ row ++ later → (∀ call ∈ row, 0 ≤ call.move) →
    movement row ≤ c.wrap.toNat →
    (((after { counter := c } before).log row).flatMap (·.2.values)).Nodup

theorem handsOut (c : SequenceCounter) (calls : List CounterCall) : HandsOut c calls := by
  have hwrap : ∀ before, (after { counter := c } before).counter.wrap = c.wrap :=
    fun before => (counter_after { counter := c } before).1
  refine
    { current_eq := (counter_after { counter := c } calls).2
      current_lt := hwrap calls ▸ (after { counter := c } calls).counter.current_lt
      fits := fun before call _ _ => (bounded_after c before).fits call
      increment := fun before delta later heq => ?_
      next := fun before later _ => ?_
      nodup := fun before row later _ hmoves hround => ?_ }
  · intro old values
    have htaken := takenFrom_log_increment { counter := c } rfl before later delta
    rw [← heq] at htaken
    have hvalues := old.toNat_toList_increment delta
    rw [hwrap before] at hvalues
    exact ⟨hvalues, old.getLast?_increment, htaken⟩
  · intro old
    have hnext := congrArg UInt64.toNat old.next_fst
    rw [toNat_valueAfter _ _ old.wrap_pos, hwrap before] at hnext
    exact ⟨hnext, rfl⟩
  · obtain ⟨hnonneg, hvalues⟩ := values_log (after { counter := c } before) hmoves
    rw [hvalues]
    exact nodup_valueAfter _ (SequenceCounter.wrap_pos _) (by rw [hwrap before]; omega)

/-- A counter stands at the sum of all moves modulo its wrap, and hands out what it has moved over,
in whatever order its clients call. No operation on the way overflows, and in a row of calls that
move on by no more than one round no value is handed out twice. A fresh counter is one that starts
right below its wrap. -/
theorem hands_out_in_turn {wrap : UInt64} (hwrap : 0 < wrap) (start : UInt64)
    (calls : List CounterCall) :
    ∃ c, SequenceCounter.startingAt? wrap start = some c ∧ c.wrap = wrap ∧
      c.current = start % wrap ∧
      (start = wrap - 1 → SequenceCounter.fresh? wrap = some c) ∧ HandsOut c calls := by
  refine ⟨.startingAt wrap start hwrap, dif_pos hwrap, rfl, rfl, ?_, handsOut _ _⟩
  rintro rfl
  have hmod : (wrap - 1) % wrap = wrap - 1 :=
    UInt64.mod_eq_of_lt (SequenceCounter.pred_lt hwrap)
  rw [SequenceCounter.fresh?, dif_pos hwrap]
  simp only [SequenceCounter.fresh, SequenceCounter.startingAt, hmod]

/-- At the greatest wrap, a move of three over the end of the round is taken from behind a move back
that undoes it. -/
theorem hands_out_past_wrap :
    ∃ c, SequenceCounter.startingAt? 18446744073709551615 18446744073709551613 = some c ∧
      HandsOut c [.increment 3, .take 0, .increment (-3), .next, .take 0, .take 0, .take 0] ∧
      takenFrom 0 (log { counter := c }
        [.increment 3, .take 0, .increment (-3), .next, .take 0, .take 0, .take 0]) =
          [18446744073709551614, 0, 1] := by
  obtain ⟨c, hc, -, -, -, hout⟩ :=
    hands_out_in_turn (show (0 : UInt64) < 18446744073709551615 by decide) 18446744073709551613
      [.increment 3, .take 0, .increment (-3), .next, .take 0, .take 0, .take 0]
  refine ⟨c, hc, hout, ?_⟩
  cases hc
  decide

end SharedCounter
end SpaceLink
