import SpaceLink.Proofs.Packet.Alignment
import SpaceLink.Proofs.Packet.Crc

/-! # Damage that a checksum shows

The encodings of two packets under a framing with a checksum never differ in a burst: in no more
than two neighbouring bytes that are both covered by the checksum or are the checksum. So what a
burst makes of an encoding is not accepted, even where it reaches the length field.
-/
namespace SpaceLink

namespace Bytes

/-- The bytes are the same but at `i` and behind it. -/
def SameBut (i : Nat) (bytes altered : Bytes) : Prop :=
  ∀ j, j ≠ i → j ≠ i + 1 → altered[j]? = bytes[j]?

variable {front front' back back' : Bytes} {i : Nat}

theorem SameBut.behind (h : SameBut i (front ++ back) (front' ++ back'))
    (hlength : front'.length = front.length) (hi : front.length ≤ i) :
    front' = front ∧ SameBut (i - front.length) back back' := by
  constructor
  · apply List.ext_getElem hlength
    intro j hj' hj
    have hsame := h j (by omega) (by omega)
    rwa [List.getElem?_append_left hj', List.getElem?_append_left hj,
      List.getElem?_eq_getElem hj', List.getElem?_eq_getElem hj, Option.some_inj] at hsame
  · intro j hne hne'
    have hsame := h (front.length + j) (by omega) (by omega)
    rwa [List.getElem?_append_right (by omega), List.getElem?_append_right (by omega), hlength,
      Nat.add_sub_cancel_left] at hsame

theorem SameBut.before (h : SameBut i (front ++ back) (front' ++ back'))
    (hlength : front'.length = front.length) (hi : i + 1 < front.length) :
    SameBut i front front' ∧ back' = back := by
  constructor
  · intro j hne hne'
    have hsame := h j hne hne'
    by_cases hj : j < front.length
    · rwa [List.getElem?_append_left hj, List.getElem?_append_left (hlength ▸ hj)] at hsame
    · rw [List.getElem?_eq_none (by omega), List.getElem?_eq_none (by omega)]
  · apply List.ext_getElem?
    intro j
    have hsame := h (front.length + j) (by omega) (by omega)
    rwa [List.getElem?_append_right (by omega), List.getElem?_append_right (by omega), hlength,
      Nat.add_sub_cancel_left] at hsame

theorem exists_pair_of_sameBut {bytes altered : Bytes} (h : SameBut i bytes altered)
    (hlength : altered.length = bytes.length) (hi : i + 1 < bytes.length) :
    ∃ (front back : Bytes) (a b c d : UInt8),
      bytes = front ++ a :: b :: back ∧ altered = front ++ c :: d :: back := by
  obtain ⟨front, later, rfl, hfront⟩ := exists_append_of_le (show i ≤ bytes.length by omega)
  obtain ⟨front', later', rfl, hfront'⟩ := exists_append_of_le (show i ≤ altered.length by omega)
  obtain ⟨rfl, hlater⟩ := h.behind (hfront'.trans hfront.symm) (Nat.le_of_eq hfront)
  simp only [List.length_append] at hlength hi
  obtain ⟨pair, back, rfl, hpair⟩ := exists_append_of_le (show 2 ≤ later.length by omega)
  obtain ⟨pair', back', rfl, hpair'⟩ := exists_append_of_le (show 2 ≤ later'.length by omega)
  obtain ⟨-, rfl⟩ := hlater.before (hpair'.trans hpair.symm) (by omega)
  obtain ⟨a, b, rfl⟩ := List.length_eq_two.1 hpair
  obtain ⟨c, d, rfl⟩ := List.length_eq_two.1 hpair'
  exact ⟨_, _, a, b, c, d, rfl, rfl⟩

end Bytes

theorem CrcRegister.eq_of_run_sameBut {r : CrcRegister} (hmarks : r.Marks) {bytes altered : Bytes}
    {i : Nat} (h : Bytes.SameBut i bytes altered) (hlength : altered.length = bytes.length)
    (hi : i + 1 < bytes.length) (hrun : r.run altered = r.run bytes) : altered = bytes := by
  obtain ⟨front, back, a, b, c, d, rfl, rfl⟩ := Bytes.exists_pair_of_sameBut h hlength hi
  obtain ⟨rfl, rfl⟩ := eq_of_run_pair hmarks hrun
  rfl

/-- The bytes differ, but only at two neighbouring places behind the qualifier, both of them before
the checksum or both in it. -/
structure Burst (f : Framing) (wire altered : Bytes) : Prop where
  ne : altered ≠ wire
  length_eq : altered.length = wire.length
  window : ∃ i : Nat, f.qualifierLength ≤ i ∧
    (i + 1 < wire.length - Crc.size ∨ i = wire.length - Crc.size) ∧ Bytes.SameBut i wire altered

/-- Behind what leads, the bytes end in their checksum. -/
def Summed (f : Framing) (crc : Crc) (bytes : Bytes) : Prop :=
  ∃ lead data : Bytes, lead.length = f.qualifierLength ∧
    bytes = lead ++ (data ++ Bytes.ofWord Crc.size (crc.register.run data).toNat)

theorem Burst.not_summed {f : Framing} {crc : Crc} {wire altered : Bytes}
    (h : Burst f wire altered) (hwire : Summed f crc wire) : ¬Summed f crc altered := by
  obtain ⟨lead, data, hlead, rfl⟩ := hwire
  rintro ⟨lead', data', hlead', rfl⟩
  obtain ⟨hne, hlength, i, hi, hplace, hsame⟩ := h
  simp only [List.length_append, Bytes.length_ofWord] at hlength hplace
  have hdata : data'.length = data.length := by omega
  obtain ⟨rfl, hsame⟩ := hsame.behind (hlead'.trans hlead.symm) (hlead ▸ hi)
  apply hne
  suffices data' = data by rw [this]
  -- Before the checksum, the same checksum leaves the same bytes; in it, the bytes are the same.
  rcases hplace with hinside | hsum
  · obtain ⟨hsame, hsums⟩ := hsame.before hdata (by omega)
    have hstates : crc.register.run data' = crc.register.run data := by
      rw [← Bytes.word_ofWord_uint16 (crc.register.run data'), ← Bytes.word_ofWord_uint16
        (crc.register.run data)]
      exact congrArg (fun bytes => UInt16.ofNat (Bytes.word bytes)) hsums
    exact CrcRegister.eq_of_run_sameBut crc.marks_register hsame hdata (by omega) hstates
  · exact (hsame.behind hdata (by omega)).1

namespace Packet

variable {f : Framing} {crc : Crc}

theorem summed_wire (hcrc : f.crc = some crc) (p : Packet) : Summed f crc (p.wire f) := by
  refine ⟨p.lead f, p.rawHeader f ++ p.body, p.length_lead f, ?_⟩
  simp only [wire, trailer, hcrc, List.append_assoc]
  rfl

/-- What is accepted is an encoding, and so ends in its own checksum. -/
theorem decode_of_burst (hcrc : f.crc = some crc) (p : Packet) {altered : Bytes}
    (h : Burst f (p.wire f) altered) : ∃ error : PacketError, decode f altered = .error error := by
  cases hdecode : decode f altered with
  | error error => exact ⟨error, rfl⟩
  | ok q =>
    obtain ⟨-, rfl⟩ := wire_of_decode hdecode
    exact absurd (summed_wire hcrc q) (h.not_summed (summed_wire hcrc p))

/-- Any one byte behind the qualifier that is changed is a burst. -/
theorem burst_set (hcrc : f.crc = some crc) (p : Packet) {i : Nat} (hi : f.qualifierLength ≤ i)
    (hlt : i < (p.wire f).length) {b : UInt8} (hb : (p.wire f)[i]? ≠ some b) :
    Burst f (p.wire f) ((p.wire f).set i b) where
  ne heq := by
    apply hb
    rw [← heq]
    exact List.getElem?_set_self hlt
  length_eq := List.length_set
  window := by
    have hsize : (p.wire f).length = f.qualifierLength + 6 + p.body.length + 2 := by
      rw [length_wire, wireSize, Framing.crcLength, hcrc]
      rfl
    have hsame (k : Nat) (hk : i = k ∨ i = k + 1) :
        Bytes.SameBut k (p.wire f) ((p.wire f).set i b) := by
      intro j hne hne'
      exact List.getElem?_set_ne (by omega)
    simp only [Crc.size]
    by_cases hbefore : i + 1 < (p.wire f).length - 2
    · exact ⟨i, hi, .inl hbefore, hsame i (.inl rfl)⟩
    by_cases hlast : i + 1 = (p.wire f).length - 2
    · exact ⟨i - 1, by omega, .inl (by omega), hsame _ (.inr (by omega))⟩
    · exact ⟨(p.wire f).length - 2, by omega, .inr rfl, hsame _ (by omega)⟩

/-- No burst makes an encoding into something that is accepted, and where the length field stays as
it is, the checksum shows it. A change of one byte behind the qualifier is a burst. -/
theorem detects_bursts (hcrc : f.crc = some crc) {p : Packet} {wire : Bytes}
    (hencode : p.encode f = .ok wire) :
    (∀ altered : Bytes, Burst f wire altered →
      (∃ error : PacketError, decode f altered = .error error) ∧
      (f.lengthBytes altered = f.lengthBytes wire → ∃ computed found : UInt16,
        decode f altered = .error (.crcMismatch computed found))) ∧
    ∀ (i : Nat) (b : UInt8), f.qualifierLength ≤ i → i < wire.length → wire[i]? ≠ some b →
      Burst f wire (wire.set i b) := by
  have hframeable := PacketWriting.frameable_of_encode_eq_ok hencode
  rw [encode_of_frameable hframeable] at hencode
  cases hencode
  constructor
  · intro altered hburst
    obtain ⟨error, hdecode⟩ := decode_of_burst hcrc p hburst
    refine ⟨⟨error, hdecode⟩, ?_⟩
    intro hfield
    have haltered : Altered f (p.sections f hframeable).bytes altered := by
      rw [bytes_sections hframeable]
      exact ⟨hburst.length_eq, hfield⟩
    rcases decode_of_cut (Sections.isCut_of_altered haltered) with ⟨q, hok⟩ | ⟨-, hmismatch⟩
    · rw [hok] at hdecode
      cases hdecode
    · exact hmismatch
  · intro i b hi hlt hb
    exact burst_set hcrc p hi hlt hb

/-- A burst over the end of the length field and the start of the body, and one inside the body. -/
theorem detects_two_bursts :
    let f : Framing := { qualifierInMessage := true, crc := some .kermit }
    let p : Packet := {
      header := { version := 1, packetType := .telecommand, apid := 5, sequenceCount := 7 }
      qualifier := 0x1234
      body := [0xAA, 0xBB, 0xCC] }
    let wire : Bytes := [0x12, 0x34, 0x30, 5, 0xC0, 7, 0, 4, 0xAA, 0xBB, 0xCC, 0x1E, 0xE1]
    f.crc = some .kermit ∧ p.encode f = .ok wire ∧
      (∃ error : PacketError, decode f ((wire.set 7 2).set 8 0xFF) = .error error) ∧
      ∃ computed found : UInt16,
        decode f ((wire.set 9 0).set 10 0xCD) = .error (.crcMismatch computed found) := by
  intro f p wire
  have hcrc : f.crc = some .kermit := rfl
  have hencode : p.encode f = .ok wire := by decide +kernel
  have hsame (i : Nat) (a b : UInt8) : Bytes.SameBut i wire ((wire.set i a).set (i + 1) b) := by
    intro j hne hne'
    exact (List.getElem?_set_ne hne'.symm).trans (List.getElem?_set_ne hne.symm)
  have hacross : Burst f wire ((wire.set 7 2).set 8 0xFF) :=
    ⟨by decide, rfl, 7, by decide, by decide, hsame 7 2 0xFF⟩
  have hinside : Burst f wire ((wire.set 9 0).set 10 0xCD) :=
    ⟨by decide, rfl, 9, by decide, by decide, hsame 9 0 0xCD⟩
  obtain ⟨hdetects, -⟩ := detects_bursts hcrc hencode
  exact ⟨hcrc, hencode, (hdetects _ hacross).1, (hdetects _ hinside).2 rfl⟩

end Packet
end SpaceLink
