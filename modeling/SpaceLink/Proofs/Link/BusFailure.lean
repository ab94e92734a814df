import SpaceLink.Proofs.Link.CanRun

/-! # Failures of the bus

A link closes when the bus refuses a frame of a message, when a read fails, and when it is told to.
A frame that the listener sends may be refused and nothing comes of it, be it part of a transaction
that is repeated or a request to repeat one.
-/
namespace SpaceLink

namespace BusAccess

/-- The bus has refused a call that the first state has not made and the second has. -/
def Refused (before after : BusAccess) : Prop :=
  ∃ call, before.calls ≤ call ∧ call < after.calls ∧ before.answer call ≠ none

/-- The bus takes so many frames from its coming call on, and refuses the one behind them. -/
def Refuses (bus : BusAccess) (count : Nat) (error : CanError) : Prop :=
  bus.Takes count ∧ bus.answer (bus.calls + count) = some error

def refused (bus : BusAccess) : BusAccess := { bus with calls := bus.calls + 1 }

theorem takes_or_refuses (bus : BusAccess) (total : Nat) :
    bus.Takes total ∨ ∃ count < total, ∃ error, bus.Refuses count error := by
  induction total with
  | zero => exact .inl fun i hi => absurd hi (Nat.not_lt_zero i)
  | succ total ih =>
    obtain htakes | ⟨count, hcount, hrefuses⟩ := ih
    · cases hanswer : bus.answer (bus.calls + total) with
      | some error => exact .inr ⟨total, Nat.lt_succ_self _, error, htakes, hanswer⟩
      | none =>
        refine .inl fun i hi => ?_
        obtain hlt | rfl := Nat.lt_succ_iff_lt_or_eq.1 hi
        · exact htakes i hlt
        · exact hanswer
    · exact .inr ⟨count, Nat.lt_succ_of_lt hcount, hrefuses⟩

/-- Nothing behind the frame that is refused is offered to the bus. -/
theorem sendAll_of_refuses {bus : BusAccess} {frames : List CanFrame} {count : Nat}
    {error : CanError} (hcount : count < frames.length) (h : bus.Refuses count error) :
    sendAll frames bus = (.error error, (bus.took (frames.take count)).refused) := by
  obtain ⟨htakes, hanswer⟩ := h
  have hlength : (frames.take count).length = count := List.length_take_of_le hcount.le
  have hcut : frames.take count ++ frames[count] :: frames.drop (count + 1) = frames := by
    rw [← List.drop_eq_getElem_cons hcount, List.take_append_drop]
  have hsend : (bus.took (frames.take count)).send frames[count] =
      (.error error, (bus.took (frames.take count)).refused) := by
    simp only [send, took, hlength, hanswer, refused]
  rw [← hlength] at htakes
  have hfrom := sendAll_append htakes (frames[count] :: frames.drop (count + 1))
  rw [hcut, sendAll, hsend] at hfrom
  exact hfrom

/-- Sending frames stops at the first one refused, and at no other. -/
theorem sendAll_eq_error_iff (frames : List CanFrame) (bus : BusAccess) :
    (∃ error, (sendAll frames bus).1 = .error error) ↔ bus.Refused (sendAll frames bus).2 := by
  rcases bus.takes_or_refuses frames.length with htakes | ⟨count, hcount, error, hrefuses⟩
  · rw [sendAll_of_takes htakes]
    refine iff_of_false (by simp) ?_
    rintro ⟨call, hle, hlt, hcall⟩
    obtain ⟨i, rfl⟩ := Nat.exists_eq_add_of_le hle
    exact hcall (htakes i (Nat.lt_of_add_lt_add_left hlt))
  · have hcalls : bus.calls + count < (bus.took (frames.take count)).refused.calls := by
      simp only [took, refused, List.length_take_of_le hcount.le]
      omega
    rw [sendAll_of_refuses hcount hrefuses]
    refine iff_of_true ⟨error, rfl⟩ ⟨bus.calls + count, Nat.le_add_right _ _, hcalls, ?_⟩
    rw [hrefuses.2]
    exact Option.some_ne_none error

end BusAccess

namespace CanLink

variable {link : CanLink}

theorem closed_shut (link : CanLink) : link.shut.closed = true := by
  unfold shut
  split
  · assumption
  · rfl

theorem inbox_shut (link : CanLink) : link.shut.inbox = link.inbox := by
  unfold shut
  split <;> rfl

theorem calls_shut (link : CanLink) : link.shut.bus.calls = link.bus.calls := by
  unfold shut
  split <;> rfl

theorem closed_write (link : CanLink) (frames : List CanFrame) :
    (link.write frames).2.closed = true ↔
      link.closed = true ∨ link.bus.Refused (link.write frames).2.bus := by
  have hrefused := BusAccess.sendAll_eq_error_iff frames link.bus
  unfold write
  rcases hsend : BusAccess.sendAll frames link.bus with ⟨error | _, bus⟩
  · rw [hsend] at hrefused
    obtain ⟨call, hle, hlt, hcall⟩ := hrefused.1 ⟨error, rfl⟩
    refine iff_of_true (closed_shut _) (.inr ⟨call, hle, ?_, hcall⟩)
    rwa [calls_shut]
  · rw [hsend] at hrefused
    have hnone : ¬link.bus.Refused bus := by
      intro h
      obtain ⟨error, herror⟩ := hrefused.2 h
      cases herror
    simp [hnone]

/-- A listener that has stopped has closed the link. -/
def Ordered (link : CanLink) : Prop := link.inbox.ended = true → link.closed = true

theorem closed_hear_error (h : link.Ordered) (error : CanError) :
    (link.hear (.error error)).closed = true := by
  unfold hear
  split
  · exact h ‹_›
  · exact closed_shut link

/-- What closes a link: a refused call while a message is written, a failed read, and its owner. -/
def Closes (link : CanLink) : CanStep → Prop
  | .write frames => link.bus.Refused (link.write frames).2.bus
  | .hear received => ∃ error, received = .error error
  | .close => True
  | .prepare _ => False
  | .receive => False

theorem closed_step (h : link.Ordered) (step : CanStep) :
    (link.step step).closed = true ↔ link.closed = true ∨ link.Closes step := by
  cases step with
  | prepare body =>
    obtain ⟨fragmenter, cache, hprepare⟩ := prepare_eq link body
    simp [CanLink.step, hprepare, Closes]
  | write frames => exact closed_write link frames
  | hear received =>
    cases received with
    | error error => exact iff_of_true (closed_hear_error h error) (.inr ⟨error, rfl⟩)
    | ok frame =>
      obtain ⟨reassembler, bus, inbox, hhear, -⟩ := hear_ok_eq link frame
      simp [CanLink.step, hhear, Closes]
  | receive => simp [CanLink.step, Transport.receive?, Closes]
  | close => exact iff_of_true (closed_shut link) (.inr trivial)

theorem inbox_write (link : CanLink) (frames : List CanFrame) :
    (link.write frames).2.inbox = link.inbox := by
  unfold write
  split
  · rfl
  · exact inbox_shut _

theorem Ordered.step (h : link.Ordered) (step : CanStep) : (link.step step).Ordered := by
  intro hended
  rw [closed_step h]
  cases step with
  | prepare body =>
    obtain ⟨fragmenter, cache, hprepare⟩ := prepare_eq link body
    simp only [CanLink.step, hprepare] at hended
    exact .inl (h hended)
  | write frames =>
    simp only [CanLink.step, inbox_write] at hended
    exact .inl (h hended)
  | hear received =>
    cases received with
    | error error => exact .inr ⟨error, rfl⟩
    | ok frame =>
      obtain ⟨reassembler, bus, inbox, hhear, -, -, hgoes⟩ := hear_ok_eq link frame
      simp only [CanLink.step, hhear, hgoes.ended_eq] at hended
      exact .inl (h hended)
  | receive =>
    have hinbox : (link.step .receive).inbox.ended = link.inbox.ended := by
      simp only [CanLink.step, Transport.receive?, Inbox.receive?]
      split <;> rfl
    rw [hinbox] at hended
    exact .inl (h hended)
  | close => exact .inr trivial

theorem Ordered.run (h : link.Ordered) (steps : List CanStep) : (link.run steps).Ordered := by
  induction steps generalizing link with
  | nil => exact h
  | cons step steps ih => exact ih (h.step step)

theorem ordered_of_open {bus : BusAccess} {config : CanLinkConfig} {start : CanLink}
    (h : CanLink.open bus config = .ok start) : start.Ordered := by
  obtain ⟨-, -, hinbox, -⟩ := open_eq_ok h
  intro hended
  rw [hinbox] at hended
  cases hended

/-- The listener of a link that is not closed runs. -/
theorem listens_run {bus : BusAccess} {config : CanLinkConfig} {start : CanLink}
    {steps : List CanStep} (h : CanLink.open bus config = .ok start)
    (hopen : (start.run steps).closed = false) : (start.run steps).inbox.ended = false := by
  rw [Bool.eq_false_iff]
  intro hended
  have hclosed := (ordered_of_open h).run steps hended
  rw [hopen] at hclosed
  cases hclosed

/-- A link is closed once a step of its run has closed it. -/
theorem closed_run (h : link.Ordered) (steps : List CanStep) :
    (link.run steps).closed = true ↔ link.closed = true ∨
      ∃ (earlier : List CanStep) (step : CanStep) (later : List CanStep),
        steps = earlier ++ step :: later ∧ (link.run earlier).Closes step := by
  induction steps generalizing link with
  | nil => simp [run]
  | cons first steps ih =>
    have hrun : link.run (first :: steps) = (link.step first).run steps := rfl
    rw [hrun, ih (h.step first), closed_step h]
    constructor
    · rintro ((hclosed | hfirst) | ⟨earlier, step, later, rfl, hstep⟩)
      · exact .inl hclosed
      · exact .inr ⟨[], first, steps, rfl, hfirst⟩
      · exact .inr ⟨first :: earlier, step, later, rfl, hstep⟩
    · rintro (hclosed | ⟨earlier, step, later, hsteps, hstep⟩)
      · exact .inl (.inl hclosed)
      · cases earlier with
        | nil =>
          obtain ⟨rfl, rfl⟩ := List.cons.inj hsteps
          exact .inl (.inr hstep)
        | cons second earlier =>
          obtain ⟨rfl, rfl⟩ := List.cons.inj hsteps
          exact .inr ⟨earlier, step, later, rfl, hstep⟩

/-- The refused calls that close a link are those of its sender and of its reading. Once closed, it
stays closed and sends nothing. -/
theorem closes_at_failures {bus : BusAccess} {config : CanLinkConfig} {start : CanLink}
    (hstart : CanLink.open bus config = .ok start) (steps : List CanStep) :
    let link := start.run steps
    (link.closed = true ↔
      ∃ (earlier : List CanStep) (step : CanStep) (later : List CanStep),
        steps = earlier ++ step :: later ∧ (start.run earlier).Closes step) ∧
    (link.closed = true → ∀ body : Bytes, link.send body = (.ok (), link)) := by
  obtain ⟨-, -, -, hopen⟩ := open_eq_ok hstart
  intro link
  constructor
  · simpa [hopen] using closed_run (ordered_of_open hstart) steps
  · intro hclosed body
    simp [send, hclosed]

/-- A bus that refuses one of its calls. -/
def refusing (number : Nat) : BusAccess where
  answer call := if call = number then some (.transport (.io (.ofKind .brokenPipe))) else none

def asking : CanLinkConfig :=
  { CanLinkConfig.of 1 2 (.classic .extended) with requestRetransmission := true }

/-- The second frame of a message is refused, and the next message is dropped. -/
theorem closes_at_second_frame :
    ∃ start : CanLink, CanLink.open (refusing 1) asking = .ok start ∧
      let link := start.run [.write [⟨1, []⟩, ⟨2, []⟩, ⟨3, []⟩]]
      link.closed = true ∧ link.bus.sent = [⟨1, []⟩] ∧ link.send [9] = (.ok (), link) := by
  obtain ⟨start, hstart⟩ : ∃ start : CanLink, CanLink.open (refusing 1) asking = .ok start :=
    ⟨_, rfl⟩
  refine ⟨start, hstart, ?_⟩
  obtain ⟨hcloses, hsilent⟩ :=
    closes_at_failures hstart [.write [⟨1, []⟩, ⟨2, []⟩, ⟨3, []⟩]]
  have hbus : start.bus = refusing 1 := (open_eq_ok hstart).2.1
  have hclosed : (start.run [.write [⟨1, []⟩, ⟨2, []⟩, ⟨3, []⟩]]).closed = true := by
    refine hcloses.2 ⟨[], _, [], rfl, 1, ?_⟩
    cases hstart
    exact ⟨by decide, by decide, by decide⟩
  refine ⟨hclosed, ?_, hsilent hclosed [9]⟩
  cases hstart
  rfl

/-- The bus refuses a repeated frame in one run, and a request for frames in another. Both links stay
open, and their next message goes out. -/
theorem open_after_refused_answers :
    ∃ sender receiver : CanLink, CanLink.open (refusing 1) asking = .ok sender ∧
      CanLink.open (refusing 0) asking = .ok receiver ∧
      (let sent := (sender.send [1]).2
       let asked := sent.hear (.ok ⟨8421376, []⟩)
       sent.bus.Refused asked.bus ∧ asked.closed = false ∧
         (asked.send [2]).2.bus.calls = 3) ∧
      (let begun := receiver.hear (.ok ⟨8429632, [1]⟩)
       let broken := begun.hear (.ok ⟨8437760, [3]⟩)
       begun.bus.Refused broken.bus ∧ broken.closed = false ∧
         (broken.send [2]).2.bus.calls = 2) := by
  refine ⟨_, _, rfl, rfl, ?_, ?_⟩
  · exact ⟨⟨1, by decide +kernel, by decide +kernel, by decide +kernel⟩, by decide +kernel,
      by decide +kernel⟩
  · exact ⟨⟨0, by decide +kernel, by decide +kernel, by decide +kernel⟩, by decide +kernel,
      by decide +kernel⟩

end CanLink
end SpaceLink
