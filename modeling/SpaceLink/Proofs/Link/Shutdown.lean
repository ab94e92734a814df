import SpaceLink.Link.PacketLink
import SpaceLink.Proofs.Link.BusFailure
import SpaceLink.Proofs.Link.Calls

/-! # The end of a link

Senders whose writes fail, the owner who closes a link, the last who gives it up and the listener
whose read fails may all end it. Over a bus and over a stream the same holds: its flag stays set, and
the one who sets it shuts what is below, once. The listener ends the link in the turn in which its
read fails, and in no other.
-/
namespace SpaceLink
open AtomicCalls

namespace CanLink

/-- What is left to do for a message. Each frame is put on the bus in a step of its own. -/
inductive Work where
  | draw (body : Bytes)
  | keep (sent : SentTransaction)
  | put (frames : List CanFrame)
  deriving DecidableEq

def work : Work → CanLink → WorkStep Work × CanLink
  | .draw body, link => match link.transactionFor body with
    | .error error => (.rejected error.toTransport, link.drawn body)
    | .ok sent => (.more (.keep sent), link.drawn body)
  | .keep sent, link => (.more (.put sent.frames), link.keep sent)
  | .put [], link => (.done, link)
  | .put (frame :: rest), link => match link.bus.send frame with
    | (.error error, bus) => (.failed (LinkError.can error).toTransport, { link with bus := bus })
    | (.ok (), bus) => (.more (.put rest), { link with bus := bus })

/-- A turn of the listener. It has none behind the first failure that it hears. -/
def hear? : Except CanError CanFrame → CanLink → Option CanLink
  | .ok frame, link => some (link.hear (.ok frame))
  | .error _, link => if link.inbox.ended then some link else none

/-- Where there is no turn to take, the listener ends the link. -/
theorem hear_eq (link : CanLink) (received : Except CanError CanFrame) :
    link.hear received =
      (hear? received link).getD { link.shut with inbox := link.shut.inbox.finish } := by
  cases received with
  | ok frame => rfl
  | error error =>
    rw [hear, hear?]
    split <;> rfl

theorem sameEnd_work (left : Work) (link : CanLink) :
    SameEnd (·.bus.shutdowns) link (work left link).2 := by
  cases left with
  | draw body =>
    simp only [work]
    cases link.transactionFor body <;> exact ⟨rfl, rfl⟩
  | keep sent => exact ⟨rfl, rfl⟩
  | put frames =>
    cases frames with
    | nil => exact ⟨rfl, rfl⟩
    | cons frame rest =>
      simp only [work, BusAccess.send]
      cases link.bus.answer link.bus.calls <;> exact ⟨rfl, rfl⟩

theorem sameEnd_hear {received : Except CanError CanFrame} {link after : CanLink}
    (h : hear? received link = some after) : SameEnd (·.bus.shutdowns) link after := by
  cases received with
  | ok frame =>
    obtain ⟨reassembler, bus, inbox, hhear, -, -, hgoes⟩ := hear_ok_eq link frame
    rw [hear?, Option.some_inj, hhear] at h
    subst h
    exact ⟨rfl, hgoes.shutdowns_eq⟩
  | error error =>
    rw [hear?, Option.ite_none_right_eq_some, Option.some_inj] at h
    obtain ⟨-, rfl⟩ := h
    exact ⟨rfl, rfl⟩

end CanLink

namespace PacketLink

/-- What is left to do for a message. Its packets are written in one step, since a writer keeps
others away from the stream. -/
inductive Work where
  | cut (body : Bytes)
  | write (packets : List Packet)
  deriving DecidableEq

def work : Work → PacketLink → WorkStep Work × PacketLink
  | .cut body, link => (.more (.write (link.cut body).1), (link.cut body).2)
  | .write packets, link => match Packet.writeAll link.config.framing packets link.sink with
    | (.error error, sink) => (.failed (LinkError.packet error).toTransport, { link with sink := sink })
    | (.ok (), sink) => (.done, { link with sink := sink })

/-- A turn of the listener. It passes over a packet whose checksum is wrong. -/
def hear? (source : Source) (link : PacketLink) : Option PacketLink :=
  match (Packet.read link.config.framing source).1 with
  | .ok packet => some (link.acceptPacket packet)
  | .error (.crcMismatch _ _) => some link
  | .error _ => none

theorem hear_eq (link : PacketLink) (source : Source) :
    (link.hear source).1 = (hear? source link).getD link.endListening := by
  rw [hear, hear?]
  rcases Packet.read link.config.framing source with ⟨error | packet, rest⟩
  · cases error <;> rfl
  · rfl

theorem sameEnd_work (left : Work) (link : PacketLink) :
    SameEnd (·.shutdowns) link (work left link).2 := by
  cases left with
  | cut body => exact ⟨rfl, rfl⟩
  | write packets =>
    simp only [work]
    rcases Packet.writeAll link.config.framing packets link.sink with ⟨_ | _, sink⟩ <;>
      exact ⟨rfl, rfl⟩

theorem sameEnd_acceptPacket (link : PacketLink) (p : Packet) :
    SameEnd (·.shutdowns) link (link.acceptPacket p) := by
  simp only [acceptPacket]
  rcases link.desegmenter.accept p with ⟨_ | _ | _, desegmenter⟩ <;> exact ⟨rfl, rfl⟩

theorem sameEnd_hear {source : Source} {link after : PacketLink}
    (h : hear? source link = some after) : SameEnd (·.shutdowns) link after := by
  simp only [hear?] at h
  split at h
  · cases h
    exact sameEnd_acceptPacket link _
  · cases h
    exact ⟨rfl, rfl⟩
  · cases h

end PacketLink

inductive Party where
  | sender | owner | listener | last | latecomer
  deriving DecidableEq

namespace Party

def call {κ : Type} (arrival : κ) : Party → LinkCall κ
  | sender => .send [1]
  | owner => .close
  | listener => .listen arrival
  | last => .drop
  | latecomer => .send [2]

def others : List (Move Party) :=
  [.call sender, .call listener, .call owner, .take, .call latecomer, .call last, .call listener]

end Party

end SpaceLink
