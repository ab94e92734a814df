import Mathlib.Algebra.BigOperators.Group.List.Basic
import SpaceLink.Proofs.Packet.Arrival

/-! # Where a reader cuts a stream

Every string of bytes is a row of whole packets and a rest that does not begin with one. The packets
may be damaged, as their checksums show; at the rest a reader fails in another way and stops. Since
no packet is empty there are fewer of them than bytes, so every stream is read to its end.
-/
namespace SpaceLink

variable {f : Framing}

/-- A whole packet has a header and a byte of data at least. -/
theorem IsCut.length_lt {bytes : Bytes} (h : IsCut f bytes) :
    f.qualifierLength + Header.size < bytes.length := by
  obtain ⟨w, rfl⟩ := h
  have hfield := w.lengthField_eq
  rw [w.length_bytes]
  omega

namespace Packet
open PacketReading

/-- A whole packet is accepted, and is then the encoding of what is read, or its checksum is wrong. -/
theorem decode_of_isCut {bytes : Bytes} (h : IsCut f bytes) :
    (∃ p : Packet, decode f bytes = .ok p ∧ p.encode f = .ok bytes) ∨
      f.crc ≠ none ∧ ∃ error : PacketError, decode f bytes = .error error ∧ error.IsMismatch := by
  rcases decode_of_cut h with ⟨p, hdecode⟩ | ⟨hcrc, computed, found, hdecode⟩
  · obtain ⟨hframeable, hwire⟩ := wire_of_decode hdecode
    exact .inl ⟨p, hdecode, by rw [encode_of_frameable hframeable, hwire]⟩
  · exact .inr ⟨hcrc, _, hdecode, computed, found, rfl⟩

/-- A read that does not fail, or fails by the checksum alone, has a whole packet before it. -/
theorem exists_isCut_of_whole {source : Source} (hsmooth : source.Smooth)
    (hwhole : Whole (read f source).1) :
    ∃ piece rest : Bytes, IsCut f piece ∧ source.contents = piece ++ rest := by
  obtain ⟨w, hcontents, -⟩ := Sections.exists_of_packet hsmooth hwhole rfl
  exact ⟨w.bytes, _, ⟨w, rfl⟩, hcontents⟩

/-- The stream is a row of whole packets and a rest, at which a reader fails. -/
structure Dissected (f : Framing) (stream : Bytes) (pieces : List Bytes) (rest : Bytes) : Prop where
  stream_eq : stream = pieces.flatten ++ rest
  isCut : ∀ piece ∈ pieces, IsCut f piece
  fails : ∃ error : PacketError, (read f (.ofBytes rest)).1 = .error error ∧ ¬error.IsMismatch

theorem exists_dissected (f : Framing) (stream : Bytes) :
    ∃ (pieces : List Bytes) (rest : Bytes), Dissected f stream pieces rest := by
  induction hlength : stream.length using Nat.strong_induction_on generalizing stream with
  | _ length ih =>
    subst hlength
    by_cases hwhole : Whole (read f (.ofBytes stream)).1
    · obtain ⟨piece, later, hcut, hstream⟩ :=
        exists_isCut_of_whole (Source.smooth_ofBytes stream) hwhole
      rw [Source.contents_ofBytes] at hstream
      subst hstream
      have hpiece := hcut.length_lt
      obtain ⟨pieces, rest, hlater⟩ := ih later.length (by rw [List.length_append]; omega) later rfl
      refine ⟨piece :: pieces, rest, ?_, List.forall_mem_cons.2 ⟨hcut, hlater.isCut⟩, hlater.fails⟩
      rw [hlater.stream_eq, List.flatten_cons, List.append_assoc]
    · unfold Whole at hwhole
      push Not at hwhole
      exact ⟨[], stream, rfl, by simp, hwhole⟩

/-- There are no more packets than bytes. -/
theorem Dissected.length_le {stream : Bytes} {pieces : List Bytes} {rest : Bytes}
    (h : Dissected f stream pieces rest) : pieces.length ≤ stream.length := by
  have hpieces := List.length_le_sum_of_one_le (pieces.map List.length) (by
    intro length hlength
    obtain ⟨piece, hpiece, rfl⟩ := List.mem_map.1 hlength
    exact Nat.one_le_of_lt (h.isCut piece hpiece).length_lt)
  rw [List.length_map] at hpieces
  rw [h.stream_eq, List.length_append, List.length_flatten]
  omega

/-- The packets among the pieces whose checksum is right, where there is one. -/
def intact (f : Framing) (pieces : List Bytes) : List Packet :=
  pieces.filterMap fun piece => (decode f piece).toOption

end Packet
end SpaceLink
