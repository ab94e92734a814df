import Mathlib.Data.List.Basic
import Mathlib.Logic.Function.Iterate
import SpaceLink.Transport.Link

/-! # Calls that race for the end of a link

Threads share a link. Some send messages; the listener of the link hears what arrives, turn by turn;
others end the link, be it the owner, the last who gives it up or the listener whose read has failed.
A call takes its steps one at a time and those of other calls come in between. Whoever finds the flag
of the link down sets it in the same step, and it alone shuts the link; whoever comes later has
nothing to do and is told that all is well.
-/
namespace SpaceLink

/-- What comes of one step of the work for a message. -/
inductive WorkStep (ω : Type) where
  | more (left : ω)
  | done
  /-- The message is turned down, and the link goes on. -/
  | rejected (error : TransportError)
  /-- The link could not be written to. -/
  | failed (error : TransportError)

inductive LinkCall (κ : Type) where
  | send (body : Bytes)
  | close
  /-- The last who holds the link gives it up. -/
  | drop
  /-- One turn of the listener, with what arrives in it. -/
  | listen (arrival : κ)

/-- Who ends a link. -/
inductive Ender where
  | sender (error : TransportError)
  | owner
  | last
  | listener
  deriving DecidableEq

inductive Phase (ω : Type) where
  | ready
  | working (left : ω)
  /-- A write or a read has failed. What comes next is the flag. -/
  | failed (ender : Ender)
  /-- The flag was found down and has been set. What comes next is to shut the link. -/
  | shutting (ender : Ender)
  /-- The listener hears nothing more. What comes next is to let those know who wait for messages. -/
  | leaving
  | ended (result : Except TransportError Unit)
  deriving DecidableEq

/-- How it goes on when another has set the flag. -/
def Ender.late {ω : Type} : Ender → Phase ω
  | .listener => .leaving
  | .sender _ | .owner | .last => .ended (.ok ())

/-- How it goes on behind shutting the link. A sender reports why its write failed, and the owner
what shutting gave; nobody is there to be told for the others. -/
def Ender.shut {ω : Type} (given : Except TransportError Unit) : Ender → Phase ω
  | .sender error => .ended (.error error)
  | .owner => .ended given
  | .last => .ended (.ok ())
  | .listener => .leaving

namespace Phase

variable {ω κ : Type}

def IsShutting (phase : Phase ω) : Prop := ∃ ender, phase = .shutting ender

end Phase

/-- What can be seen of the end of a link is the same: its flag, and how often it was shut. -/
def SameEnd {τ : Type} [Transport τ] (shutdowns : τ → Nat) (link after : τ) : Prop :=
  Transport.isClosed after = Transport.isClosed link ∧ shutdowns after = shutdowns link

/-- The atomic steps of calls at a link, with work of type `ω` for a message and arrivals of type `κ`
for the listener. A turn in which the read fails gives no link; then the listener ends the link and
leaves it. -/
structure AtomicCalls (τ ω κ : Type) [Transport τ] where
  first : Bytes → ω
  work : ω → τ → WorkStep ω × τ
  hear? : κ → τ → Option τ
  leave : τ → τ
  mark : τ → τ
  shutdown : τ → Except TransportError Unit × τ
  shutdowns : τ → Nat
  sameEnd_work : ∀ left link, SameEnd shutdowns link (work left link).2
  sameEnd_hear : ∀ {arrival link after}, hear? arrival link = some after →
    SameEnd shutdowns link after
  sameEnd_leave : ∀ link, SameEnd shutdowns link (leave link)
  sameEnd_take : ∀ link, SameEnd shutdowns link (Transport.receive? link).2
  isClosed_mark : ∀ link, Transport.isClosed (mark link) = true
  shutdowns_mark : ∀ link, shutdowns (mark link) = shutdowns link
  isClosed_shutdown : ∀ link, Transport.isClosed (shutdown link).2 = Transport.isClosed link
  shutdowns_shutdown : ∀ link, shutdowns (shutdown link).2 = shutdowns link + 1

/-- A link and how far each of its calls has come. -/
structure Race (τ ω ι : Type) where
  link : τ
  phase : ι → Phase ω := fun _ => .ready

namespace AtomicCalls

section Step
variable {τ ω κ : Type} [Transport τ] (c : AtomicCalls τ ω κ)

/-- Sets the flag, and shuts the link next if the flag was down. -/
def swap (ender : Ender) (link : τ) : Phase ω × τ :=
  if Transport.isClosed link then (ender.late, link) else (.shutting ender, c.mark link)

/-- The next step of a call. -/
def next (call : LinkCall κ) (phase : Phase ω) (link : τ) : Phase ω × τ :=
  match phase with
  | .ready => match call with
    | .send body =>
      if Transport.isClosed link then (.ended (.ok ()), link) else (.working (c.first body), link)
    | .close => c.swap .owner link
    | .drop => c.swap .last link
    | .listen arrival => match c.hear? arrival link with
      | some link => (.ended (.ok ()), link)
      | none => (.failed .listener, link)
  | .working left => match c.work left link with
    | (.more left, link) => (.working left, link)
    | (.done, link) => (.ended (.ok ()), link)
    | (.rejected error, link) => (.ended (.error error), link)
    | (.failed error, link) => (.failed (.sender error), link)
  | .failed ender => c.swap ender link
  | .shutting ender => (ender.shut (c.shutdown link).1, (c.shutdown link).2)
  | .leaving => (.ended (.ok ()), c.leave link)
  | .ended result => (.ended result, link)

variable {c} {phase : Phase ω} {link : τ}

/-- What a step does to the flag and to what is below the link: nothing, or it sets the flag that
was down, or it shuts the link for the call that has set the flag. -/
inductive Effect (phase next : Phase ω) (link after : τ) : Prop where
  | quiet (hbefore : ¬phase.IsShutting) (hafter : ¬next.IsShutting)
      (hsame : SameEnd c.shutdowns link after)
  | wins (hbefore : ¬phase.IsShutting) (hafter : next.IsShutting)
      (hopen : Transport.isClosed link = false) (hclosed : Transport.isClosed after = true)
      (hshutdowns : c.shutdowns after = c.shutdowns link)
  | shuts (hbefore : phase.IsShutting) (hafter : ¬next.IsShutting)
      (hclosed : Transport.isClosed after = Transport.isClosed link)
      (hshutdowns : c.shutdowns after = c.shutdowns link + 1)

theorem not_isShutting_late (ender : Ender) : ¬(ender.late : Phase ω).IsShutting := by
  cases ender <;> simp [Ender.late, Phase.IsShutting]

theorem not_isShutting_shut (ender : Ender) (given : Except TransportError Unit) :
    ¬(ender.shut given : Phase ω).IsShutting := by
  cases ender <;> simp [Ender.shut, Phase.IsShutting]

theorem effect_swap (hphase : ¬phase.IsShutting) (ender : Ender) (link : τ) :
    c.Effect phase (c.swap ender link).1 link (c.swap ender link).2 := by
  rw [swap]
  split
  · exact .quiet hphase (not_isShutting_late ender) ⟨rfl, rfl⟩
  · rename_i hopen
    exact .wins hphase ⟨ender, rfl⟩ (Bool.not_eq_true _ ▸ hopen) (c.isClosed_mark link)
      (c.shutdowns_mark link)

theorem effect_ready (call : LinkCall κ) (link : τ) :
    c.Effect .ready (c.next call .ready link).1 link (c.next call .ready link).2 := by
  have hready : ¬(.ready : Phase ω).IsShutting := by simp [Phase.IsShutting]
  cases call with
  | send body =>
    simp only [next]
    split <;> exact .quiet hready (by simp [Phase.IsShutting]) ⟨rfl, rfl⟩
  | close => exact effect_swap hready .owner link
  | drop => exact effect_swap hready .last link
  | listen arrival =>
    simp only [next]
    split
    · rename_i after hhear
      exact .quiet hready (by simp [Phase.IsShutting]) (c.sameEnd_hear hhear)
    · exact .quiet hready (by simp [Phase.IsShutting]) ⟨rfl, rfl⟩

theorem effect_next (call : LinkCall κ) (phase : Phase ω) (link : τ) :
    c.Effect phase (c.next call phase link).1 link (c.next call phase link).2 := by
  cases phase with
  | ready => exact effect_ready call link
  | working left =>
    have hsame := c.sameEnd_work left link
    simp only [next]
    rcases hwork : c.work left link with ⟨_ | _ | _ | _, after⟩ <;>
      rw [hwork] at hsame <;>
      exact .quiet (by simp [Phase.IsShutting]) (by simp [Phase.IsShutting]) hsame
  | failed ender => exact effect_swap (by simp [Phase.IsShutting]) ender link
  | shutting ender =>
    exact .shuts ⟨ender, rfl⟩ (not_isShutting_shut ender _) (c.isClosed_shutdown link)
      (c.shutdowns_shutdown link)
  | leaving =>
    exact .quiet (by simp [Phase.IsShutting]) (by simp [Phase.IsShutting, next])
      (c.sameEnd_leave link)
  | ended result =>
    exact .quiet (by simp [Phase.IsShutting]) (by simp [Phase.IsShutting, next]) ⟨rfl, rfl⟩

theorem shutdowns_le_next (call : LinkCall κ) (phase : Phase ω) (link : τ) :
    c.shutdowns link ≤ c.shutdowns (c.next call phase link).2 := by
  rcases c.effect_next call phase link with
    ⟨-, -, -, hcount⟩ | ⟨-, -, -, -, hcount⟩ | ⟨-, -, -, hcount⟩ <;> omega

end Step

section Settled
variable {τ ω κ ι : Type} [Transport τ]

/-- Nothing has shut the link while its flag is down. Once the flag is set, the link has been shut
once, or the one call that has set the flag is about to do so. -/
structure Settled (c : AtomicCalls τ ω κ) (before : Nat) (s : Race τ ω ι) : Prop where
  of_open : Transport.isClosed s.link = false →
    c.shutdowns s.link = before ∧ ∀ i, ¬(s.phase i).IsShutting
  of_closed : Transport.isClosed s.link = true →
    c.shutdowns s.link = before + 1 ∧ (∀ i, ¬(s.phase i).IsShutting) ∨
      c.shutdowns s.link = before ∧ ∃ winner, ∀ i, (s.phase i).IsShutting ↔ i = winner

variable {c : AtomicCalls τ ω κ} {before : Nat} {s : Race τ ω ι}

theorem Settled.of_same (h : c.Settled before s) {t : Race τ ω ι}
    (hlink : SameEnd c.shutdowns s.link t.link)
    (hphase : ∀ i, (t.phase i).IsShutting ↔ (s.phase i).IsShutting) : c.Settled before t := by
  constructor <;> intro hnow <;> rw [hlink.1] at hnow <;> simp only [hlink.2, hphase]
  · exact h.of_open hnow
  · exact h.of_closed hnow

theorem Settled.shutdowns_le (h : c.Settled before s) : c.shutdowns s.link ≤ before + 1 := by
  cases hclosed : Transport.isClosed s.link with
  | false => exact (h.of_open hclosed).1 ▸ Nat.le_succ _
  | true => rcases h.of_closed hclosed with ⟨hcount, -⟩ | ⟨hcount, -⟩ <;> omega

theorem Settled.of_shutting (h : c.Settled before s) {who : ι}
    (hshutting : (s.phase who).IsShutting) : Transport.isClosed s.link = true ∧
      c.shutdowns s.link = before ∧ ∀ i, (s.phase i).IsShutting ↔ i = who := by
  have hclosed : Transport.isClosed s.link = true := by
    by_contra hopen
    exact (h.of_open (Bool.not_eq_true _ ▸ hopen)).2 who hshutting
  rcases h.of_closed hclosed with ⟨-, hnobody⟩ | ⟨hcount, winner, hwinner⟩
  · exact absurd hshutting (hnobody who)
  · obtain rfl := (hwinner who).1 hshutting
    exact ⟨hclosed, hcount, hwinner⟩

end Settled

/-- Whose turn it is: that of a call, or of somebody who takes the next message. -/
inductive Move (ι : Type) where
  | call (who : ι)
  | take

section Run
variable {τ ω κ ι : Type} [Transport τ] [DecidableEq ι] (c : AtomicCalls τ ω κ)
  (calls : ι → LinkCall κ)

def advance (s : Race τ ω ι) (who : ι) : Race τ ω ι where
  link := (c.next (calls who) (s.phase who) s.link).2
  phase := Function.update s.phase who (c.next (calls who) (s.phase who) s.link).1

def move (s : Race τ ω ι) : Move ι → Race τ ω ι
  | .call who => c.advance calls s who
  | .take => { s with link := (Transport.receive? s.link).2 }

def run (s : Race τ ω ι) (schedule : List (Move ι)) : Race τ ω ι :=
  schedule.foldl (c.move calls) s

variable {c} {calls} {s : Race τ ω ι} {before : Nat}

theorem phase_advance_self (s : Race τ ω ι) (who : ι) :
    (c.advance calls s who).phase who = (c.next (calls who) (s.phase who) s.link).1 :=
  Function.update_self _ _ _

theorem phase_advance_of_ne {who other : ι} (h : other ≠ who) :
    (c.advance calls s who).phase other = s.phase other := Function.update_of_ne h _ _

theorem phase_move_of_ne {who : ι} {m : Move ι} (h : m ≠ .call who) :
    (c.move calls s m).phase who = s.phase who := by
  cases m with
  | call other => exact phase_advance_of_ne fun heq => h (by rw [heq])
  | take => rfl

theorem shutdowns_le_run (s : Race τ ω ι) (schedule : List (Move ι)) :
    c.shutdowns s.link ≤ c.shutdowns (c.run calls s schedule).link := by
  induction schedule generalizing s with
  | nil => exact Nat.le_refl _
  | cons m schedule ih =>
    refine Nat.le_trans ?_ (ih _)
    cases m with
    | call who => exact shutdowns_le_next _ _ _
    | take => exact Nat.le_of_eq (c.sameEnd_take _).2.symm

theorem Settled.advance (h : c.Settled before s) (who : ι) :
    c.Settled before (c.advance calls s who) := by
  have hself : (c.advance calls s who).phase who =
      (c.next (calls who) (s.phase who) s.link).1 := phase_advance_self s who
  rcases c.effect_next (calls who) (s.phase who) s.link with
    ⟨hbefore, hafter, hsame⟩ | ⟨hbefore, hafter, hopen, hclosed, hshutdowns⟩ |
      ⟨hbefore, hafter, hclosed, hshutdowns⟩ <;> rw [← hself] at hafter
  · refine h.of_same hsame fun i => ?_
    by_cases hi : i = who
    · subst hi
      exact iff_of_false hafter hbefore
    · rw [phase_advance_of_ne hi]
  · obtain ⟨hcount, hnobody⟩ := h.of_open hopen
    refine ⟨fun hnow => ?_, fun _ => .inr ⟨hshutdowns.trans hcount, who, fun i => ?_⟩⟩
    · exact absurd (hclosed.symm.trans hnow) (by simp)
    · by_cases hi : i = who
      · subst hi
        exact iff_of_true hafter rfl
      · rw [phase_advance_of_ne hi]
        exact iff_of_false (hnobody i) hi
  · obtain ⟨hset, hcount, hwinner⟩ := h.of_shutting hbefore
    refine ⟨fun hnow => ?_, fun _ => .inl ⟨hshutdowns.trans (congrArg _ hcount), fun i => ?_⟩⟩
    · exact absurd ((hclosed.trans hset).symm.trans hnow) (by simp)
    · by_cases hi : i = who
      · subst hi
        exact hafter
      · rw [phase_advance_of_ne hi, hwinner]
        exact hi

theorem Settled.move (h : c.Settled before s) (m : Move ι) :
    c.Settled before (c.move calls s m) := by
  cases m with
  | call who => exact h.advance who
  | take => exact h.of_same (c.sameEnd_take _) fun _ => Iff.rfl

theorem Settled.run (h : c.Settled before s) (schedule : List (Move ι)) :
    c.Settled before (c.run calls s schedule) := by
  induction schedule generalizing s with
  | nil => exact h
  | cons m schedule ih => exact ih (h.move m)

/-- The call that has set the flag shuts the link with its next step, and nobody does again. -/
theorem Settled.shuts (h : c.Settled before s) {who : ι} (hshutting : (s.phase who).IsShutting)
    {schedule : List (Move ι)} (hmem : .call who ∈ schedule) :
    c.shutdowns (c.run calls s schedule).link = before + 1 := by
  induction schedule generalizing s with
  | nil => cases hmem
  | cons m schedule ih =>
    by_cases hm : m = .call who
    · subst hm
      obtain ⟨ender, hphase⟩ := hshutting
      obtain ⟨-, hcount, -⟩ := h.of_shutting ⟨ender, hphase⟩
      have hnow : c.shutdowns (c.move calls s (.call who)).link = before + 1 := by
        simp only [AtomicCalls.move, AtomicCalls.advance, next, hphase, c.shutdowns_shutdown, hcount]
      have hlater : c.shutdowns (c.move calls s (.call who)).link ≤
          c.shutdowns (c.run calls (c.move calls s (.call who)) schedule).link :=
        shutdowns_le_run _ schedule
      rw [hnow] at hlater
      exact Nat.le_antisymm (h.run _).shutdowns_le hlater
    · refine ih (h.move m) ?_ ((List.mem_cons.1 hmem).resolve_left (Ne.symm hm))
      rw [phase_move_of_ne hm]
      exact hshutting

end Run

section Alone
variable {τ ω κ : Type} [Transport τ]

/-- A call that takes its steps without interruption comes from one point to another. -/
def Leads (c : AtomicCalls τ ω κ) (call : LinkCall κ) (before after : Phase ω × τ) : Prop :=
  ∃ count : Nat, (fun s : Phase ω × τ => c.next call s.1 s.2)^[count] before = after

variable {c : AtomicCalls τ ω κ} {call : LinkCall κ} {phase : Phase ω} {link : τ}

theorem Leads.refl (s : Phase ω × τ) : c.Leads call s s := ⟨0, rfl⟩

theorem Leads.step {before middle after : Phase ω × τ}
    (hfirst : c.next call before.1 before.2 = middle) (hrest : c.Leads call middle after) :
    c.Leads call before after := by
  obtain ⟨count, rfl⟩ := hrest
  exact ⟨count + 1, by rw [Function.iterate_succ_apply, hfirst]⟩

theorem Leads.trans {before middle after : Phase ω × τ} (hfirst : c.Leads call before middle)
    (hrest : c.Leads call middle after) : c.Leads call before after := by
  obtain ⟨first, rfl⟩ := hfirst
  obtain ⟨rest, rfl⟩ := hrest
  exact ⟨rest + first, Function.iterate_add_apply _ _ _ _⟩

end Alone

end AtomicCalls
end SpaceLink
