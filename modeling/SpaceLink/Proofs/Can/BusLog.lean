import Mathlib.Data.List.DropRight
import SpaceLink.Can.Bus

/-! # Logs of the loopback bus

A run of the bus is the calls that are made and what they give. Its log says which taps take part at
any point, what the loss rule goes by, and so which of the frames that are sent are for a tap.
-/
namespace SpaceLink

inductive BusStep where
  | openTap
  | send (tap : Nat) (frame : CanFrame)
  | receive (tap : Nat)
  | shutdown (tap : Nat)
  | drop (tap : Nat)
  | setLoss (rule : Option LossRule)

inductive BusAnswer where
  | opened (tap : Nat)
  | sent (result : Except CanError Unit)
  /-- Without a result the call still waits for a frame. -/
  | received (result : Option (Except CanError CanFrame))
  | done

abbrev BusLog := List (BusStep × BusAnswer)

namespace BusLog

/-- Whether a tap has been opened and none of these calls has been made since. -/
def Since (stops : BusStep → Prop) (tap : Nat) (log : BusLog) : Prop :=
  ∃ earlier later : BusLog, log = earlier ++ (.openTap, .opened tap) :: later ∧
    ∀ entry ∈ later, ¬stops entry.1

def Opened (tap : Nat) : BusLog → Prop := Since (fun _ => False) tap

/-- Nobody has shut the tap, so it sends. -/
def Running (tap : Nat) : BusLog → Prop := Since (· = .shutdown tap) tap

/-- The tap has not been given up, so it can be used. -/
def Held (tap : Nat) : BusLog → Prop := Since (· = .drop tap) tap

/-- The tap takes part in the bus. -/
def Attached (tap : Nat) : BusLog → Prop := Since (fun s => s = .shutdown tap ∨ s = .drop tap) tap

/-- The frame that went out, if any did. -/
def sentFrame : BusStep × BusAnswer → Option CanFrame
  | (.send _ frame, .sent (.ok ())) => some frame
  | _ => none

/-- The setting of the loss rule, if the call is one. -/
def setting : BusStep × BusAnswer → Option (Option LossRule)
  | (.setLoss rule, _) => some rule
  | _ => none

/-- The rule that was set last. -/
def rule (log : BusLog) : Option LossRule := (log.filterMap setting).getLast?.join

/-- The frames that went out under the rule that was set last, the latest first. -/
def underRule (log : BusLog) : List CanFrame :=
  ((log.rtakeWhile fun entry => (setting entry).isNone).filterMap sentFrame).reverse

/-- The rule takes the frame out, going by those before it. -/
def Loses (log : BusLog) (frame : CanFrame) : Prop :=
  ∃ decides : LossRule, log.rule = some decides ∧ decides log.underRule frame = true

/-- The frame sent at a place of the log is for the tap. -/
def IsFor (tap : Nat) (log : BusLog) (place : Nat × CanFrame) : Prop :=
  ∃ sender : Nat, log[place.1]? = some (.send sender place.2, .sent (.ok ())) ∧ sender ≠ tap ∧
    Attached tap (log.take place.1) ∧ ¬Loses (log.take place.1) place.2

/-- All the places where a frame for the tap was sent, in the order of the log. -/
structure Addresses (tap : Nat) (log : BusLog) (places : List (Nat × CanFrame)) : Prop where
  ordered : places.Pairwise fun x y => x.1 < y.1
  mem_iff : ∀ place, place ∈ places ↔ IsFor tap log place

/-- What the receiving calls at a tap gave. -/
def receipts (tap : Nat) (log : BusLog) : List (Option (Except CanError CanFrame)) :=
  log.filterMap fun
    | (.receive n, .received result) => if n = tap then some result else none
    | _ => none

def received (tap : Nat) (log : BusLog) : List CanFrame :=
  (receipts tap log).filterMap fun
    | some (.ok frame) => some frame
    | _ => none

variable {stops : BusStep → Prop} {tap : Nat} {log : BusLog}

theorem since_concat (entry : BusStep × BusAnswer) :
    Since stops tap (log ++ [entry]) ↔
      entry = (.openTap, .opened tap) ∨ Since stops tap log ∧ ¬stops entry.1 := by
  constructor
  · rintro ⟨earlier, later, heq, hlater⟩
    rcases later.eq_nil_or_concat' with rfl | ⟨later, last, rfl⟩
    · exact .inl (List.singleton_inj.1 (List.append_inj_right' heq rfl))
    · rw [← List.cons_append, ← List.append_assoc] at heq
      obtain ⟨rfl, hlast⟩ := List.append_inj' heq rfl
      obtain rfl := List.singleton_inj.1 hlast
      exact .inr ⟨⟨earlier, later, rfl, fun e he => hlater e (List.mem_append_left _ he)⟩,
        hlater entry (List.mem_append_right _ List.mem_cons_self)⟩
  · rintro (rfl | ⟨⟨earlier, later, rfl, hlater⟩, hentry⟩)
    · exact ⟨log, [], rfl, by simp⟩
    · refine ⟨earlier, later ++ [entry], by simp, ?_⟩
      intro e he
      rcases List.mem_append.1 he with he | he
      · exact hlater e he
      · rw [List.mem_singleton.1 he]
        exact hentry

theorem Since.mono {weaker : BusStep → Prop} (h : Since stops tap log)
    (hstops : ∀ s, weaker s → stops s) : Since weaker tap log := by
  obtain ⟨earlier, later, rfl, hlater⟩ := h
  exact ⟨earlier, later, rfl, fun entry hentry hweaker => hlater entry hentry (hstops _ hweaker)⟩

theorem Attached.held (h : Attached tap log) : Held tap log := h.mono fun _ => .inr

theorem Since.opened (h : Since stops tap log) : Opened tap log := h.mono fun _ => False.elim

theorem Opened.of_take {count : Nat} (h : Opened tap (log.take count)) : Opened tap log := by
  obtain ⟨earlier, later, heq, -⟩ := h
  refine ⟨earlier, later ++ log.drop count, ?_, fun _ _ => id⟩
  rw [← List.cons_append, ← List.append_assoc, ← heq, List.take_append_drop]

theorem rule_concat (entry : BusStep × BusAnswer) :
    rule (log ++ [entry]) = (setting entry).getD log.rule := by
  rw [rule, List.filterMap_append]
  cases hset : setting entry <;> simp [hset, rule]

theorem underRule_concat (entry : BusStep × BusAnswer) :
    underRule (log ++ [entry]) = if (setting entry).isSome then [] else
      (sentFrame entry).toList ++ log.underRule := by
  cases hset : setting entry with
  | none =>
    rw [underRule, List.rtakeWhile_concat_pos _ _ _ (by simp [hset]), List.filterMap_append]
    cases hsent : sentFrame entry <;> simp [hsent, underRule]
  | some rule => simp [underRule, hset]

/-- An entry more changes nothing for the places before it. -/
theorem isFor_concat (entry : BusStep × BusAnswer) (place : Nat × CanFrame) :
    IsFor tap (log ++ [entry]) place ↔ IsFor tap log place ∨
      place.1 = log.length ∧ ∃ sender : Nat, entry = (.send sender place.2, .sent (.ok ())) ∧
        sender ≠ tap ∧ Attached tap log ∧ ¬Loses log place.2 := by
  obtain ⟨index, frame⟩ := place
  rcases Nat.lt_trichotomy index log.length with hlt | rfl | hgt
  · have htake : (log ++ [entry]).take index = log.take index :=
      List.take_append_of_le_length (Nat.le_of_lt hlt)
    simp [IsFor, htake, List.getElem?_append_left hlt, Nat.ne_of_lt hlt]
  · simp [IsFor]
  · have hnone : log[index]? = none := List.getElem?_eq_none (Nat.le_of_lt hgt)
    have hlast : (log ++ [entry])[index]? = none :=
      List.getElem?_eq_none (by rw [List.length_append, List.length_singleton]; omega)
    simp [IsFor, hnone, hlast, Nat.ne_of_gt hgt]

theorem IsFor.lt_length {place : Nat × CanFrame} (h : IsFor tap log place) :
    place.1 < log.length := by
  obtain ⟨sender, hentry, -⟩ := h
  exact (List.getElem?_eq_some_iff.1 hentry).1

theorem receipts_append (earlier later : BusLog) :
    receipts tap (earlier ++ later) = receipts tap earlier ++ receipts tap later :=
  List.filterMap_append

theorem received_append (earlier later : BusLog) :
    received tap (earlier ++ later) = received tap earlier ++ received tap later := by
  rw [received, receipts_append, List.filterMap_append]
  rfl

end BusLog

end SpaceLink
