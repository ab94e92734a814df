import SpaceLink.Codec.Value
import SpaceLink.Proofs.Bytes

/-! # Values read back

A value that fits its length field is written as bytes which a reader of its kind takes off the front
of any input. `Decodes` says so of a reader, and holds of each part of a value.
-/
namespace SpaceLink

theorem ofUtf8?_utf8 (text : String) : ofUtf8? (utf8 text) = some text := by
  have hvalid : text.toByteArray.IsValidUTF8 := text.isValidUTF8
  rw [ofUtf8?, utf8]
  simp only [Array.toArray_toList]
  rw [String.fromUTF8?, dif_pos hvalid]
  rfl

variable {α β : Type}

/-- The reader takes the bytes off the front of any input, and gives the value. -/
def Decodes (read : Bytes → Except CodecError (α × Bytes)) (bytes : Bytes) (value : α) : Prop :=
  ∀ rest : Bytes, read (bytes ++ rest) = .ok (value, rest)

theorem Decodes.map {read : Bytes → Except CodecError (α × Bytes)} {bytes : Bytes} {value : α}
    (h : Decodes read bytes value) (f : α → β) :
    Decodes (fun input => (read input).map fun (a, rest) => (f a, rest)) bytes (f value) := by
  intro rest
  simp only [h rest]
  rfl

theorem decodes_takeBytes (bytes : Bytes) : Decodes (takeBytes bytes.length) bytes bytes := by
  intro rest
  have hle : bytes.length ≤ (bytes ++ rest).length := by
    rw [List.length_append]
    exact Nat.le_add_right _ _
  rw [takeBytes, if_pos hle, List.take_left, List.drop_left]

theorem decodes_takeWord (bytes : Bytes) :
    Decodes (takeWord bytes.length) bytes (Bytes.word bytes) :=
  (decodes_takeBytes bytes).map Bytes.word

theorem decodes_takeByte (b : UInt8) : Decodes (takeWord 1) [b] b.toNat := by
  have h := decodes_takeWord [b]
  have hword : Bytes.word [b] = b.toNat := by simp [Bytes.word]
  rw [hword] at h
  exact h

theorem decodes_takeWithLength {bytes : Bytes} (h : bytes.length ≤ maxLength) :
    Decodes takeWithLength (Bytes.ofWord 4 bytes.length ++ bytes) bytes := by
  intro rest
  have hlength := decodes_takeWord (Bytes.ofWord 4 bytes.length) (bytes ++ rest)
  have hlt : bytes.length < 256 ^ 4 := Nat.lt_of_le_of_lt h (by decide)
  rw [Bytes.length_ofWord, Bytes.word_ofWord_of_lt hlt] at hlength
  rw [takeWithLength, List.append_assoc, hlength]
  exact decodes_takeBytes bytes rest

namespace Value

/-- A text or blob is no longer than its length field can tell. -/
def Fits : Value → Prop
  | .string t | .identifier t | .uri t => (utf8 t).length ≤ maxLength
  | .blob b => b.length ≤ maxLength
  | _ => True

theorem eq_boolean_of_kind {value : Value} (h : value.kind = .boolean) :
    ∃ b, value = .boolean b := by
  cases value with
  | boolean b => exact ⟨b, rfl⟩
  | _ => cases h

theorem decodes_uint8 (w : UInt8) (make : UInt8 → Value) :
    Decodes (fun input => read.number input 1 fun n => make (UInt8.ofNat n)) [w] (make w) := by
  have h := (decodes_takeByte w).map fun n => make (UInt8.ofNat n)
  rw [UInt8.ofNat_toNat] at h
  exact h

theorem decodes_word (width n : Nat) (make : Nat → Value) :
    Decodes (fun input => read.number input width make) (Bytes.ofWord width n)
      (make (Bytes.word (Bytes.ofWord width n))) := by
  have h := (decodes_takeWord (Bytes.ofWord width n)).map make
  rw [Bytes.length_ofWord] at h
  exact h

theorem decodes_uint16 (w : UInt16) (make : UInt16 → Value) :
    Decodes (fun input => read.number input 2 fun n => make (UInt16.ofNat n))
      (Bytes.ofWord 2 w.toNat) (make w) := by
  have h := decodes_word 2 w.toNat fun n => make (UInt16.ofNat n)
  rw [Bytes.word_ofWord_uint16] at h
  exact h

theorem decodes_uint32 (w : UInt32) (make : UInt32 → Value) :
    Decodes (fun input => read.number input 4 fun n => make (UInt32.ofNat n))
      (Bytes.ofWord 4 w.toNat) (make w) := by
  have h := decodes_word 4 w.toNat fun n => make (UInt32.ofNat n)
  rw [Bytes.word_ofWord_uint32] at h
  exact h

theorem decodes_uint64 (w : UInt64) (make : UInt64 → Value) :
    Decodes (fun input => read.number input 8 fun n => make (UInt64.ofNat n))
      (Bytes.ofWord 8 w.toNat) (make w) := by
  have h := decodes_word 8 w.toNat fun n => make (UInt64.ofNat n)
  rw [Bytes.word_ofWord_uint64] at h
  exact h

theorem decodes_text {text : String} (h : (utf8 text).length ≤ maxLength) (index : Nat)
    (make : String → Value) :
    Decodes (fun input => read.text index input make)
      (Bytes.ofWord 4 (utf8 text).length ++ utf8 text) (make text) := by
  intro rest
  simp only [read.text, decodes_takeWithLength h rest, bind, Except.bind, ofUtf8?_utf8]

theorem decodes_boolean (b : Bool) (index : Nat) :
    Decodes (Value.read .boolean index) [if b then 1 else 0] (.boolean b) := by
  intro rest
  rw [Value.read, decodes_takeByte]
  cases b <;> rfl

/-- A value that fits has an encoding, and its kind is enough to read it back. -/
theorem decodes_write {value : Value} (h : value.Fits) :
    ∃ bytes : Bytes, value.write = .ok bytes ∧
      ∀ index, Decodes (Value.read value.kind index) bytes value := by
  cases value with
  | boolean b => exact ⟨_, rfl, decodes_boolean b⟩
  | octet n => exact ⟨_, rfl, fun _ => decodes_uint8 n.toUInt8 fun w => .octet w.toInt8⟩
  | uOctet n => exact ⟨_, rfl, fun _ => decodes_uint8 n .uOctet⟩
  | short n => exact ⟨_, rfl, fun _ => decodes_uint16 n.toUInt16 fun w => .short w.toInt16⟩
  | uShort n => exact ⟨_, rfl, fun _ => decodes_uint16 n .uShort⟩
  | integer n => exact ⟨_, rfl, fun _ => decodes_uint32 n.toUInt32 fun w => .integer w.toInt32⟩
  | uInteger n => exact ⟨_, rfl, fun _ => decodes_uint32 n .uInteger⟩
  | long n => exact ⟨_, rfl, fun _ => decodes_uint64 n.toUInt64 fun w => .long w.toInt64⟩
  | uLong n => exact ⟨_, rfl, fun _ => decodes_uint64 n .uLong⟩
  | float n => exact ⟨_, rfl, fun _ => decodes_uint32 n .float⟩
  | double n => exact ⟨_, rfl, fun _ => decodes_uint64 n .double⟩
  | time n => exact ⟨_, rfl, fun _ => decodes_uint64 n .time⟩
  | fineTime n => exact ⟨_, rfl, fun _ => decodes_uint64 n .fineTime⟩
  | duration n => exact ⟨_, rfl, fun _ => decodes_uint64 n .duration⟩
  | string t => exact ⟨_, if_pos h, fun index => decodes_text h index .string⟩
  | identifier t => exact ⟨_, if_pos h, fun index => decodes_text h index .identifier⟩
  | uri t => exact ⟨_, if_pos h, fun index => decodes_text h index .uri⟩
  | blob b => exact ⟨_, if_pos h, fun _ => (decodes_takeWithLength h).map Value.blob⟩

end Value
end SpaceLink
