import Mathlib.Data.List.Basic
import SpaceLink.Io.Sink
import SpaceLink.Io.Source

/-! # Streams without failures

A smooth source brings its bytes in any pieces and with any interruptions, and what is read from it
depends on the bytes alone. An open sink may take few bytes at a time and be interrupted, and takes
every byte in the end.
-/
namespace SpaceLink

namespace ReadEvent

/-- A read that brings at least one byte, or is interrupted and made again. -/
def IsSmooth : ReadEvent → Prop
  | .data bytes => bytes ≠ []
  | .fault error => error.isInterrupted = true

end ReadEvent

namespace Source

def Smooth (source : Source) : Prop := ∀ event ∈ source, event.IsSmooth

@[simp] theorem contents_nil : contents [] = [] := rfl

@[simp] theorem contents_data (bytes : Bytes) (rest : Source) :
    contents (.data bytes :: rest) = bytes ++ contents rest := rfl

@[simp] theorem contents_fault (error : IoError) (rest : Source) :
    contents (.fault error :: rest) = contents rest := rfl

@[simp] theorem contents_ofBytes (bytes : Bytes) : (ofBytes bytes).contents = bytes := by
  cases bytes with
  | nil => rfl
  | cons b rest => simp [ofBytes]

theorem smooth_nil : Smooth [] := by simp [Smooth]

theorem smooth_cons {event : ReadEvent} {rest : Source} :
    Smooth (event :: rest) ↔ event.IsSmooth ∧ rest.Smooth := by simp [Smooth]

theorem smooth_ofBytes (bytes : Bytes) : (ofBytes bytes).Smooth := by
  cases bytes with
  | nil => exact smooth_nil
  | cons b rest => exact smooth_cons.2 ⟨List.cons_ne_nil b rest, smooth_nil⟩

theorem fill_smooth {source : Source} (h : source.Smooth) (needed : Nat) :
    ∃ rest : Source, source.fill needed = (.ok (source.contents.take needed), rest) ∧
      rest.Smooth ∧ rest.contents = source.contents.drop needed := by
  induction source generalizing needed with
  | nil => exact ⟨[], by simp [fill], smooth_nil, by simp⟩
  | cons event rest ih =>
    obtain ⟨hevent, hrest⟩ := smooth_cons.1 h
    cases event with
    | data chunk =>
      by_cases hzero : needed = 0
      · subst hzero
        exact ⟨.data chunk :: rest, by simp [fill], h, by simp⟩
      have hne : chunk ≠ [] := hevent
      have hchunk : chunk.isEmpty = false := by simpa using hne
      by_cases hle : chunk.length ≤ needed
      · obtain ⟨left, hfill, hsmooth, hcontents⟩ := ih hrest (needed - chunk.length)
        refine ⟨left, ?_, hsmooth, ?_⟩
        · simp [fill, hzero, hchunk, hle, hfill, Except.map, List.take_append,
            List.take_of_length_le hle]
        · rw [hcontents, contents_data, List.drop_append, List.drop_of_length_le hle,
            List.nil_append]
      · have hlt : needed < chunk.length := Nat.lt_of_not_le hle
        refine ⟨.data (chunk.drop needed) :: rest, ?_, ?_, ?_⟩
        · simp [fill, hzero, hchunk, hle, List.take_append_of_le_length (Nat.le_of_lt hlt)]
        · have hne : chunk.drop needed ≠ [] := by
            rw [← List.length_pos_iff, List.length_drop]
            omega
          exact smooth_cons.2 ⟨hne, hrest⟩
        · rw [contents_data, contents_data, List.drop_append_of_le_length (Nat.le_of_lt hlt)]
    | fault error =>
      by_cases hzero : needed = 0
      · subst hzero
        exact ⟨.fault error :: rest, by simp [fill], h, by simp⟩
      · obtain ⟨left, hfill, hsmooth, hcontents⟩ := ih hrest needed
        have herror : error.isInterrupted = true := hevent
        exact ⟨left, by simp [fill, hzero, herror, hfill], hsmooth, by simp [hcontents]⟩

end Source

namespace WriteEvent

/-- A write that takes at least one byte, or is interrupted and made again. -/
def IsOpen : WriteEvent → Prop
  | .accept limit => limit ≠ 0
  | .fault error => error.isInterrupted = true

end WriteEvent

namespace Sink

structure Open (sink : Sink) : Prop where
  writes : ∀ event ∈ sink.writes, event.IsOpen
  flushes : ∀ error : IoError, some error ∈ sink.flushes → error.isInterrupted = true

theorem push_of_open {events : List WriteEvent} (h : ∀ event ∈ events, event.IsOpen)
    (buffer : Bytes) :
    (push buffer events).result = .ok () ∧ (push buffer events).accepted = buffer ∧
      ∀ event ∈ (push buffer events).rest, event.IsOpen := by
  induction events generalizing buffer with
  | nil => simp [push]
  | cons event rest ih =>
    obtain ⟨hevent, hrest⟩ := List.forall_mem_cons.1 h
    by_cases hempty : buffer.isEmpty = true
    · have hnil : buffer = [] := List.isEmpty_iff.1 hempty
      subst hnil
      simpa [push] using h
    cases event with
    | accept limit =>
      have hlimit : limit ≠ 0 := hevent
      obtain ⟨hresult, haccepted, hopen⟩ := ih hrest (buffer.drop limit)
      rw [push, if_neg hempty, if_neg hlimit]
      exact ⟨hresult, by simp [haccepted], hopen⟩
    | fault error =>
      have herror : error.isInterrupted = true := hevent
      obtain ⟨hresult, haccepted, hopen⟩ := ih hrest buffer
      rw [push, if_neg hempty, if_pos herror]
      exact ⟨hresult, haccepted, hopen⟩

theorem settle_of_open {answers : List (Option IoError)}
    (h : ∀ error : IoError, some error ∈ answers → error.isInterrupted = true) :
    (settle answers).1 = .ok () ∧
      ∀ error : IoError, some error ∈ (settle answers).2.2 → error.isInterrupted = true := by
  induction answers with
  | nil => simp [settle]
  | cons answer rest ih =>
    have hrest : ∀ error : IoError, some error ∈ rest → error.isInterrupted = true :=
      fun error he => h error (List.mem_cons_of_mem _ he)
    cases answer with
    | none => exact ⟨rfl, hrest⟩
    | some error =>
      have herror := h error List.mem_cons_self
      rw [settle, if_pos herror]
      exact ih hrest

/-- An open sink takes all of a buffer and stays open. -/
theorem send_of_open {sink : Sink} (h : sink.Open) (buffer : Bytes) :
    (sink.send buffer).1 = .ok () ∧ (sink.send buffer).2.written = sink.written ++ buffer ∧
      (sink.send buffer).2.Open := by
  obtain ⟨hresult, haccepted, hopen⟩ := push_of_open h.writes buffer
  obtain ⟨hsettle, hleft⟩ := settle_of_open h.flushes
  rw [send]
  simp only [hresult]
  exact ⟨hsettle, by rw [haccepted], ⟨hopen, hleft⟩⟩

end Sink
end SpaceLink
