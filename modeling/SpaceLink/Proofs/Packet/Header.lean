import SpaceLink.Packet.Header
import SpaceLink.Proofs.BitField
import SpaceLink.Proofs.Bytes

/-! # Headers read back

Reading the six bytes of a header gives each field cut to its width, and a valid header unchanged.
No field runs over into another, whatever its value.
-/
namespace SpaceLink

theorem eq_zero_or_one {word : UInt64} (h : word.toNat < 2) : word = 0 ∨ word = 1 := by
  simp only [← UInt64.toNat_inj, UInt64.toNat_zero, UInt64.toNat_one]
  omega

namespace PacketType

theorem bit_lt (t : PacketType) : t.bit.toNat < 2 := by cases t <;> decide

theorem ofBit_bit (t : PacketType) : ofBit t.bit = t := by cases t <;> rfl

theorem bit_ofBit {bit : UInt64} (h : bit.toNat < 2) : (ofBit bit).bit = bit := by
  rcases eq_zero_or_one h with rfl | rfl <;> rfl

end PacketType

namespace SequenceFlags

theorem bits_lt (s : SequenceFlags) : s.bits.toNat < 4 := by cases s <;> decide

theorem ofBits_bits (s : SequenceFlags) : ofBits s.bits = s := by cases s <;> rfl

theorem bits_ofBits {bits : UInt64} (h : bits.toNat < 4) : (ofBits bits).bits = bits := by
  have hcases : bits = 0 ∨ bits = 1 ∨ bits = 2 ∨ bits = 3 := by
    simp only [← UInt64.toNat_inj, UInt64.toNat_ofNat]
    omega
  rcases hcases with rfl | rfl | rfl | rfl <;> rfl

end SequenceFlags

namespace Header
open BitField

/-- The header that is left when each field is cut to its width. -/
def onWire (h : Header) : Header :=
  { h with
    version := h.version % 8
    apid := h.apid % 2048
    sequenceCount := h.sequenceCount % 16384 }

theorem onWire_of_isValid {h : Header} (hv : h.isValid = true) : h.onWire = h := by
  simp only [isValid, Bool.and_eq_true, decide_eq_true_eq, UInt8.le_iff_toNat_le,
    UInt16.le_iff_toNat_le] at hv
  obtain ⟨⟨hversion, hapid⟩, hcount⟩ := hv
  have hv : h.version % 8 = h.version := by
    apply UInt8.toNat_inj.1
    rw [UInt8.toNat_mod]
    exact Nat.mod_eq_of_lt (Nat.lt_succ_of_le hversion)
  have ha : h.apid % 2048 = h.apid := by
    apply UInt16.toNat_inj.1
    rw [UInt16.toNat_mod]
    exact Nat.mod_eq_of_lt (Nat.lt_succ_of_le hapid)
  have hc : h.sequenceCount % 16384 = h.sequenceCount := by
    apply UInt16.toNat_inj.1
    rw [UInt16.toNat_mod]
    exact Nat.mod_eq_of_lt (Nat.lt_succ_of_le hcount)
  rw [onWire, hv, ha, hc]

theorem identification_lt (h : Header) : h.identification.toNat < 2 ^ 16 := by
  apply insertLow_lt (by decide)
  apply insertLow_lt (by decide)
  apply insertLow_lt (by decide)
  exact insertLow_lt (by decide) (by decide) _

theorem control_lt (h : Header) : h.control.toNat < 2 ^ 16 := by
  apply insertLow_lt (by decide)
  exact insertLow_lt (by decide) (by decide) _

theorem extract_version (h : Header) :
    (versionField.extract h.identification).toUInt8 = h.version % 8 := by
  apply UInt8.toNat_inj.1
  rw [UInt64.toNat_toUInt8, identification, extract_insertLow_of_apart (by decide),
    extract_insertLow_of_apart (by decide), extract_insertLow_of_apart (by decide),
    toNat_extract_insertLow, UInt8.toNat_toUInt64, UInt8.toNat_mod]
  exact Nat.mod_eq_of_lt (Nat.lt_trans (Nat.mod_lt _ (by decide)) (by decide))

theorem extract_type (h : Header) :
    PacketType.ofBit (typeField.extract h.identification) = h.packetType := by
  rw [identification, extract_insertLow_of_apart (by decide),
    extract_insertLow_of_apart (by decide), extract_insertLow _ _ h.packetType.bit_lt,
    PacketType.ofBit_bit]

theorem extract_secondary (h : Header) :
    (secondaryField.extract h.identification == 1) = h.secondaryHeader := by
  have hlt : h.secondaryHeader.toUInt64.toNat < 2 ^ secondaryField.width := by
    cases h.secondaryHeader <;> decide
  rw [identification, extract_insertLow_of_apart (by decide), extract_insertLow _ _ hlt]
  cases h.secondaryHeader <;> rfl

theorem extract_apid (h : Header) :
    (apidField.extract h.identification).toUInt16 = h.apid % 2048 := by
  apply UInt16.toNat_inj.1
  rw [UInt64.toNat_toUInt16, identification, toNat_extract_insertLow, UInt16.toNat_toUInt64,
    UInt16.toNat_mod]
  exact Nat.mod_eq_of_lt (Nat.lt_trans (Nat.mod_lt _ (by decide)) (by decide))

theorem extract_flags (h : Header) :
    SequenceFlags.ofBits (flagsField.extract h.control) = h.sequenceFlags := by
  rw [control, extract_insertLow_of_apart (by decide),
    extract_insertLow _ _ h.sequenceFlags.bits_lt, SequenceFlags.ofBits_bits]

theorem extract_count (h : Header) :
    (countField.extract h.control).toUInt16 = h.sequenceCount % 16384 := by
  apply UInt16.toNat_inj.1
  rw [UInt64.toNat_toUInt16, control, toNat_extract_insertLow, UInt16.toNat_toUInt64,
    UInt16.toNat_mod]
  exact Nat.mod_eq_of_lt (Nat.lt_trans (Nat.mod_lt _ (by decide)) (by decide))

theorem ofWords_words (h : Header) : ofWords h.identification h.control = h.onWire := by
  rw [ofWords, extract_version, extract_type, extract_secondary, extract_apid, extract_flags,
    extract_count, onWire]

@[simp] theorem length_toBytes (h : Header) (lengthField : UInt16) :
    (h.toBytes lengthField).length = size := by
  simp [toBytes, size]

theorem ofBytes_toBytes (h : Header) (lengthField : UInt16) :
    ofBytes (h.toBytes lengthField) = (h.onWire, lengthField) := by
  have hid : Bytes.word (Bytes.ofWord 2 h.identification.toNat) = h.identification.toNat :=
    Bytes.word_ofWord_of_lt h.identification_lt
  have hcontrol : Bytes.word (Bytes.ofWord 2 h.control.toNat) = h.control.toNat :=
    Bytes.word_ofWord_of_lt h.control_lt
  have hfirst : ((h.toBytes lengthField).drop 0).take 2 =
      Bytes.ofWord 2 h.identification.toNat := by
    simp [toBytes]
  have hsecond : ((h.toBytes lengthField).drop 2).take 2 = Bytes.ofWord 2 h.control.toNat := by
    simp [toBytes]
  have hthird : ((h.toBytes lengthField).drop 4).take 2 = Bytes.ofWord 2 lengthField.toNat := by
    rw [toBytes, List.drop_left' (by simp), List.take_of_length_le (by simp)]
  simp only [ofBytes, hfirst, hsecond, hthird, hid, hcontrol, Bytes.word_ofWord_uint16,
    UInt64.ofNat_toNat, ofWords_words]

/-- The fields of the first word cover it. -/
theorem identification_ofWords {word : UInt64} (h : word.toNat < 2 ^ 16) (control : UInt64) :
    (ofWords word control).identification = word := by
  have hversion : (ofWords word control).version.toUInt64 = versionField.extract word := by
    apply UInt64.toNat_inj.1
    rw [UInt8.toNat_toUInt64, ofWords, UInt64.toNat_toUInt8]
    exact Nat.mod_eq_of_lt (Nat.lt_trans (versionField.extract_lt word) (by decide))
  have htype : (ofWords word control).packetType.bit = typeField.extract word :=
    PacketType.bit_ofBit (typeField.extract_lt word)
  have hsecondary : (ofWords word control).secondaryHeader.toUInt64 =
      secondaryField.extract word := by
    rw [ofWords]
    rcases eq_zero_or_one (secondaryField.extract_lt word) with hbit | hbit <;> rw [hbit] <;> rfl
  have hapid : (ofWords word control).apid.toUInt64 = apidField.extract word := by
    apply UInt64.toNat_inj.1
    rw [UInt16.toNat_toUInt64, ofWords, UInt64.toNat_toUInt16]
    exact Nat.mod_eq_of_lt (Nat.lt_trans (apidField.extract_lt word) (by decide))
  rw [identification, hversion, htype, hsecondary, hapid]
  apply eq_of_testBit
  intro i
  simp only [testBit_insertLow_extract, apidField, secondaryField, typeField, versionField]
  split_ifs
  · rfl
  · rfl
  · rfl
  · rfl
  · have hi : 16 ≤ i := by omega
    rw [UInt64.toNat_zero, Nat.zero_testBit, testBit_of_le h hi]

theorem control_ofWords (identification : UInt64) {word : UInt64} (h : word.toNat < 2 ^ 16) :
    (ofWords identification word).control = word := by
  have hflags : (ofWords identification word).sequenceFlags.bits = flagsField.extract word :=
    SequenceFlags.bits_ofBits (flagsField.extract_lt word)
  have hcount : (ofWords identification word).sequenceCount.toUInt64 = countField.extract word := by
    apply UInt64.toNat_inj.1
    rw [UInt16.toNat_toUInt64, ofWords, UInt64.toNat_toUInt16]
    exact Nat.mod_eq_of_lt (Nat.lt_trans (countField.extract_lt word) (by decide))
  rw [control, hflags, hcount]
  apply eq_of_testBit
  intro i
  simp only [testBit_insertLow_extract, countField, flagsField]
  split_ifs
  · rfl
  · rfl
  · have hi : 16 ≤ i := by omega
    rw [UInt64.toNat_zero, Nat.zero_testBit, testBit_of_le h hi]

theorem toNat_ofNat_word {bytes : Bytes} (h : bytes.length = 2) :
    (UInt64.ofNat (Bytes.word bytes)).toNat = Bytes.word bytes := by
  have hlt := Bytes.word_lt bytes
  rw [h] at hlt
  rw [UInt64.toNat_ofNat', Nat.mod_eq_of_lt (Nat.lt_trans hlt (by decide))]

/-- Any six bytes are those of the header that is read off them. -/
theorem toBytes_ofBytes {raw : Bytes} (h : raw.length = size) :
    (ofBytes raw).1.toBytes (ofBytes raw).2 = raw := by
  have hword {piece : Bytes} (hpiece : piece.length = 2) :
      (UInt64.ofNat (Bytes.word piece)).toNat < 2 ^ 16 ∧
        Bytes.ofWord 2 (UInt64.ofNat (Bytes.word piece)).toNat = piece := by
    have hlt := Bytes.word_lt piece
    have hbytes := Bytes.ofWord_word piece
    rw [hpiece] at hlt hbytes
    rw [toNat_ofNat_word hpiece]
    exact ⟨hlt, hbytes⟩
  match raw, h with
  | [a, b, c, d, e, f], _ =>
    obtain ⟨hfirst, hidentification⟩ := hword (show [a, b].length = 2 from rfl)
    obtain ⟨hsecond, hcontrol⟩ := hword (show [c, d].length = 2 from rfl)
    have hlength := Bytes.ofWord_uint16_word (show [e, f].length = 2 from rfl)
    simp only [ofBytes, toBytes, List.drop, List.take]
    rw [identification_ofWords hfirst, control_ofWords _ hsecond, hidentification, hcontrol,
      hlength]
    rfl

end Header
end SpaceLink
