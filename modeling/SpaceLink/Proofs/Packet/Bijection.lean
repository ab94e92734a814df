import SpaceLink.Proofs.Packet.Wire

/-! # What is written and what is accepted

The byte strings that a reader accepts are the encodings of packets, and no packet has two. So a
framing pairs the packets it can frame, each field cut to its width, with the bytes it accepts.
-/
namespace SpaceLink

namespace Sections
open PacketReading

variable {f : Framing}

theorem lead_packet (w : Sections f) : w.packet.lead f = w.lead := by
  have hlength := w.length_lead
  rw [Framing.qualifierLength] at hlength
  rw [Packet.lead, packet, qualifierOf]
  split_ifs at hlength ⊢
  · exact Bytes.ofWord_uint16_word hlength
  · exact (List.length_eq_zero_iff.1 hlength).symm

theorem rawHeader_packet (w : Sections f) : w.packet.rawHeader f = w.header := by
  have hfield : UInt16.ofNat (w.body.length + f.crcLength - 1) = (Header.ofBytes w.header).2 := by
    rw [← w.lengthField_eq, Nat.add_sub_cancel, UInt16.ofNat_toNat]
  rw [Packet.rawHeader, packet, hfield, Header.toBytes_ofBytes w.length_header]

theorem trailer_packet {w : Sections f} (h : compared f w.header w.body w.trailer = .ok ()) :
    w.packet.trailer f = w.trailer := by
  have hlength := w.length_trailer
  rw [Framing.crcLength] at hlength
  rw [compared] at h
  rw [Packet.trailer, rawHeader_packet]
  cases hcrc : f.crc with
  | none =>
    rw [hcrc] at hlength
    exact (List.length_eq_zero_iff.1 hlength).symm
  | some crc =>
    rw [hcrc] at hlength h
    dsimp only at h
    split_ifs at h with hsum
    have hword := Bytes.ofWord_uint16_word hlength
    rwa [← hsum] at hword

theorem frameable_packet (w : Sections f) : w.packet.Frameable f where
  body_le := w.body_le
  data_pos := by
    have hfield := w.lengthField_eq
    rw [body_packet]
    omega
  data_le := by
    have hfield := w.lengthField_eq
    have hlt := (Header.ofBytes w.header).2.toNat_lt
    rw [body_packet, Framing.maxDataField]
    omega

/-- Sections that a reader accepts are the encoding of the packet that it gives. -/
theorem wire_of_verdict {w : Sections f} {p : Packet} (h : w.verdict = .ok p) :
    p.Frameable f ∧ p.wire f = w.bytes := by
  obtain ⟨hcompared, rfl⟩ := verdict_eq_ok h
  refine ⟨w.frameable_packet, ?_⟩
  rw [Packet.wire, w.lead_packet, w.rawHeader_packet, trailer_packet hcompared, bytes]
  simp only [List.append_assoc]
  rfl

end Sections

namespace Packet

theorem decode_wire {f : Framing} {p : Packet} (h : p.Frameable f) :
    decode f (p.wire f) = .ok (p.received f) := by
  rw [← bytes_sections h, Sections.decode_bytes, verdict_sections h]

theorem wire_of_decode {f : Framing} {p : Packet} {bytes : Bytes} (h : decode f bytes = .ok p) :
    p.Frameable f ∧ p.wire f = bytes := by
  obtain ⟨w, rfl, hverdict⟩ := Sections.exists_of_decode_eq_ok h
  exact Sections.wire_of_verdict hverdict

end Packet

namespace PacketWriting

theorem packet_of_too_large {f : Framing} {p : Packet} (h : f.effectiveMaxBody < p.body.length)
    (buffer : Gathered) : packet f p buffer =
      (.error (.bodyTooLarge p.body.length f.effectiveMaxBody), buffer) := by
  rw [packet, if_pos h]
  rfl

theorem packet_of_unrepresentable {f : Framing} {p : Packet}
    (hbody : p.body.length ≤ f.effectiveMaxBody)
    (h : p.body.length + f.crcLength = 0 ∨ Framing.maxDataField < p.body.length + f.crcLength)
    (buffer : Gathered) :
    packet f p buffer = (.error (.bodyUnrepresentable p.body.length f.crcLength), buffer) := by
  rw [packet, if_neg (Nat.not_lt.2 hbody), if_pos h]
  rfl

theorem frameable_of_encode_eq_ok {f : Framing} {p : Packet} {wire : Bytes}
    (h : p.encode f = .ok wire) : p.Frameable f := by
  rw [Packet.encode, toBytes] at h
  by_cases hbody : p.body.length ≤ f.effectiveMaxBody
  · by_cases hdata : p.body.length + f.crcLength = 0 ∨
        Framing.maxDataField < p.body.length + f.crcLength
    · rw [packet_of_unrepresentable hbody hdata] at h
      cases h
    · exact ⟨hbody, by omega, by omega⟩
  · rw [packet_of_too_large (Nat.lt_of_not_le hbody)] at h
    cases h

/-- A packet without an encoding is refused by every buffer, which stays as it is. -/
theorem packet_of_encode_eq_error {f : Framing} {p : Packet} {error : PacketError}
    (h : p.encode f = .error error) (buffer : Gathered) :
    packet f p buffer = (.error error, buffer) := by
  rw [Packet.encode, toBytes] at h
  by_cases hbody : p.body.length ≤ f.effectiveMaxBody
  · by_cases hdata : p.body.length + f.crcLength = 0 ∨
        Framing.maxDataField < p.body.length + f.crcLength
    · rw [packet_of_unrepresentable hbody hdata] at h ⊢
      cases h
      rfl
    · obtain ⟨after, hrun, -⟩ := writes_packet (⟨hbody, by omega, by omega⟩ : p.Frameable f) .empty
      rw [hrun] at h
      cases h
  · rw [packet_of_too_large (Nat.lt_of_not_le hbody)] at h ⊢
    cases h
    rfl

/-- A batch stops at its first packet without an encoding. -/
theorem forM_of_encode_eq_error {f : Framing} {before after : List Packet} {p : Packet}
    {error : PacketError} (hbefore : ∀ q ∈ before, q.Frameable f) (h : p.encode f = .error error)
    (buffer : Gathered) : ∃ left : Gathered,
      (before ++ p :: after).forM (packet f) buffer = (.error error, left) := by
  induction before generalizing buffer with
  | nil =>
    have hp := packet_of_encode_eq_error h buffer
    refine ⟨buffer, ?_⟩
    change (packet f p >>= fun _ => after.forM (packet f)) buffer = _
    simp only [bind, ExceptT.bind, ExceptT.mk, StateT.bind, hp, ExceptT.bindCont]
    rfl
  | cons q before ih =>
    obtain ⟨hq, hrest⟩ := List.forall_mem_cons.1 hbefore
    obtain ⟨next, hwrite, -⟩ := writes_packet hq buffer
    obtain ⟨left, hstop⟩ := ih hrest next
    refine ⟨left, ?_⟩
    change (packet f q >>= fun _ => (before ++ p :: after).forM (packet f)) buffer = _
    simp only [bind, ExceptT.bind, ExceptT.mk, StateT.bind, hwrite, ExceptT.bindCont]
    exact hstop

theorem encodeAll_of_encode_eq_error {f : Framing} {before after : List Packet} {p : Packet}
    {error : PacketError} (hbefore : ∀ q ∈ before, q.Frameable f) (h : p.encode f = .error error) :
    Packet.encodeAll f (before ++ p :: after) = .error error := by
  obtain ⟨left, hstop⟩ : ∃ left : Gathered,
      (before ++ p :: after).forM (packet f) .empty = (.error error, left) :=
    forM_of_encode_eq_error hbefore h .empty
  rw [Packet.encodeAll, toBytes, hstop]

/-- A packet is refused, and the buffer left as it is, or its encoding is appended and read back
with each header field cut to its width; and bytes that are accepted are what their packet is
written as. -/
theorem writes_accepted (f : Framing) :
    (∀ p : Packet,
      let maxBody := min f.maxBodySize 65536
      let dataLength := p.body.length + f.crcLength
      (maxBody < p.body.length ∧ ∀ buffer : Gathered,
        packet f p buffer = (.error (.bodyTooLarge p.body.length maxBody), buffer)) ∨
      (p.body.length ≤ maxBody ∧ (dataLength = 0 ∨ 65536 < dataLength) ∧ ∀ buffer : Gathered,
        packet f p buffer = (.error (.bodyUnrepresentable p.body.length f.crcLength), buffer)) ∨
      (p.body.length ≤ maxBody ∧ 0 < dataLength ∧ dataLength ≤ 65536 ∧ ∃ wire : Bytes,
        wire.length = p.wireSize f ∧
        Packet.decode f wire = .ok {
          header := { p.header with
            version := p.header.version % 8
            apid := p.header.apid % 2048
            sequenceCount := p.header.sequenceCount % 16384 }
          qualifier := if f.qualifierInMessage then p.qualifier else f.defaultQualifier
          body := p.body
          properties := [] } ∧
        ∀ buffer : Gathered, ∃ after : Gathered,
          packet f p buffer = (.ok (), after) ∧ after.bytes = buffer.bytes ++ wire)) ∧
    (∀ (bytes : Bytes) (p : Packet), Packet.decode f bytes = .ok p → ∀ buffer : Gathered,
      ∃ after : Gathered,
        packet f p buffer = (.ok (), after) ∧ after.bytes = buffer.bytes ++ bytes) := by
  constructor
  · intro p maxBody dataLength
    by_cases hmax : maxBody < p.body.length
    · exact .inl ⟨hmax, packet_of_too_large hmax⟩
    have hbody : p.body.length ≤ maxBody := Nat.not_lt.1 hmax
    by_cases hdata : dataLength = 0 ∨ 65536 < dataLength
    · exact .inr (.inl ⟨hbody, hdata, packet_of_unrepresentable hbody hdata⟩)
    have hpos : 0 < dataLength := by omega
    have hle : dataLength ≤ 65536 := by omega
    have hframeable : p.Frameable f := ⟨hbody, hpos, hle⟩
    exact .inr (.inr ⟨hbody, hpos, hle, p.wire f, p.length_wire f, Packet.decode_wire hframeable,
      writes_packet hframeable⟩)
  · intro bytes p h
    obtain ⟨hframeable, rfl⟩ := Packet.wire_of_decode h
    exact writes_packet hframeable

/-- Accepted bytes with qualifier and checksum, written again behind other bytes. -/
theorem rewrites_qualified :
    let f : Framing := { qualifierInMessage := true, crc := some .ccittFalse }
    let bytes : Bytes := [0x12, 0x34, 0x30, 0x05, 0xC0, 0x07, 0, 3, 0xAA, 0xBB, 0x6A, 0xF4]
    let p : Packet := {
      header := { version := 1, packetType := .telecommand, apid := 5, sequenceCount := 7 }
      qualifier := 0x1234
      body := [0xAA, 0xBB] }
    Packet.decode f bytes = .ok p ∧ ∃ after : Gathered,
      packet f p (.of [1, 2]) = (.ok (), after) ∧ after.bytes = [1, 2] ++ bytes := by
  intro f bytes p
  have hdecode : Packet.decode f bytes = .ok p := by decide +kernel
  exact ⟨hdecode, (writes_accepted f).2 bytes p hdecode (.of [1, 2])⟩

end PacketWriting
end SpaceLink
