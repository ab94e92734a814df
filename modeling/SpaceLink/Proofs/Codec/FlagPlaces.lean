import SpaceLink.Codec.Split
import SpaceLink.Proofs.Codec.Flags

/-! # Where each flag stands

Flag `i` of a row is bit `i % 8` of byte `i / 8`. A writer is given the flags in turn, begins a byte
at each eighth and sets bits in the last one; it arrives at what `pack` makes of the whole row. A
reader of some bytes is known by how many flags it has taken, and there are eight to each byte. So
the bytes that it says it has used are never more than there are, and behind packed flags they end
where the values begin.
-/
namespace SpaceLink.Flags

/-- Flag `i` of some bytes, if they reach that far. -/
def flagAt? (bytes : Bytes) (i : Nat) : Option Bool :=
  bytes[i / 8]?.map fun b => b.toNat.testBit (i % 8)

theorem getElem?_bitsOf (b : UInt8) {i : Nat} (h : i < 8) :
    (bitsOf b)[i]? = some (b.toNat.testBit i) := by
  simp [bitsOf, h]

theorem getElem?_flatMap_bitsOf (bytes : Bytes) (i : Nat) :
    (bytes.flatMap bitsOf)[i]? = flagAt? bytes i := by
  induction bytes generalizing i with
  | nil => rfl
  | cons b bytes ih =>
    rw [List.flatMap_cons, flagAt?]
    by_cases hi : i < 8
    · have hbyte : i / 8 = 0 := by omega
      rw [List.getElem?_append_left (by rwa [length_bitsOf]), getElem?_bitsOf b hi, hbyte,
        Nat.mod_eq_of_lt hi]
      rfl
    · have hbyte : i / 8 = (i - 8) / 8 + 1 := by omega
      have hplace : i % 8 = (i - 8) % 8 := by omega
      rw [List.getElem?_append_right (by rw [length_bitsOf]; omega), length_bitsOf, ih, flagAt?,
        hbyte, hplace, List.getElem?_cons_succ]

theorem flagAt?_eq_none_iff {bytes : Bytes} {i : Nat} :
    flagAt? bytes i = none ↔ 8 * bytes.length ≤ i := by
  rw [← getElem?_flatMap_bitsOf, List.getElem?_eq_none_iff, length_flatMap_bitsOf]

/-- The flags stand in their places, the bytes are no more than they need, and no other bit is
set. -/
structure Holds (flags : List Bool) (bytes : Bytes) : Prop where
  length : bytes.length = (flags.length + 7) / 8
  placed : ∀ i (h : i < flags.length), flagAt? bytes i = some flags[i]
  clear : ∀ i, flags.length ≤ i → i < 8 * bytes.length → flagAt? bytes i = some false

theorem Holds.flatMap_bitsOf {flags : List Bool} {bytes : Bytes} (h : Holds flags bytes) :
    bytes.flatMap bitsOf = flags ++ List.replicate (8 * bytes.length - flags.length) false := by
  apply List.ext_getElem?
  intro i
  rw [getElem?_flatMap_bitsOf]
  by_cases hi : i < flags.length
  · rw [h.placed i hi, List.getElem?_append_left hi, List.getElem?_eq_getElem hi]
  · rw [List.getElem?_append_right (by omega), List.getElem?_replicate]
    split
    · exact h.clear i (by omega) (by omega)
    · exact flagAt?_eq_none_iff.2 (by omega)

theorem holds_of_flatMap_bitsOf {flags : List Bool} {bytes : Bytes} {pad : Nat}
    (hlength : bytes.length = (flags.length + 7) / 8)
    (hbits : bytes.flatMap bitsOf = flags ++ List.replicate pad false) : Holds flags bytes := by
  have hsize : 8 * bytes.length = flags.length + pad := by
    rw [← length_flatMap_bitsOf, hbits, List.length_append, List.length_replicate]
  refine ⟨hlength, fun i hi => ?_, fun i hle hlt => ?_⟩
  · rw [← getElem?_flatMap_bitsOf, hbits, List.getElem?_append_left hi,
      List.getElem?_eq_getElem hi]
  · rw [← getElem?_flatMap_bitsOf, hbits, List.getElem?_append_right hle,
      List.getElem?_replicate, if_pos (by omega)]

theorem holds_pack (flags : List Bool) : Holds flags (pack flags) := by
  obtain ⟨pad, hbits⟩ := bits_pack flags
  exact holds_of_flatMap_bitsOf (length_pack flags) hbits

theorem pack_flatMap_bitsOf (bytes : Bytes) : pack (bytes.flatMap bitsOf) = bytes := by
  induction bytes with
  | nil => rfl
  | cons b bytes ih => rw [List.flatMap_cons, pack_bitsOf_append, ih]

/-- A row of flags is held by one row of bytes only. -/
theorem Holds.eq_pack {flags : List Bool} {bytes : Bytes} (h : Holds flags bytes) :
    bytes = pack flags := by
  have hbits : bytes.flatMap bitsOf = (pack flags).flatMap bitsOf := by
    rw [h.flatMap_bitsOf, (holds_pack flags).flatMap_bitsOf, h.length, length_pack]
  rw [← pack_flatMap_bitsOf bytes, hbits, pack_flatMap_bitsOf]

theorem testBit_or_one_shiftLeft (b : UInt8) {place : Nat} (h : place < 8) (i : Nat) :
    (b ||| 1 <<< UInt8.ofNat place).toNat.testBit i =
      (b.toNat.testBit i || decide (place = i)) := by
  have hone : (1 <<< UInt8.ofNat place : UInt8).toNat = 2 ^ place := by
    rw [UInt8.toNat_shiftLeft, UInt8.toNat_ofNat', Nat.mod_eq_of_lt (by omega : place < 2 ^ 8),
      Nat.mod_eq_of_lt h, UInt8.toNat_one, Nat.shiftLeft_eq, Nat.one_mul,
      Nat.mod_eq_of_lt (Nat.pow_lt_pow_right (by decide) h)]
  rw [UInt8.toNat_or, hone, Nat.testBit_or, Nat.testBit_two_pow]

/-- A bit set in one byte is one flag set in the row. -/
theorem flatMap_bitsOf_modify (bytes : Bytes) (k : Nat) {place : Nat} (h : place < 8) :
    (bytes.modify k (· ||| 1 <<< UInt8.ofNat place)).flatMap bitsOf =
      (bytes.flatMap bitsOf).set (8 * k + place) true := by
  apply List.ext_getElem?
  intro i
  have hset : 8 * k + place = i ↔ k = i / 8 ∧ place = i % 8 := by omega
  rw [getElem?_flatMap_bitsOf, List.getElem?_set', getElem?_flatMap_bitsOf, flagAt?, flagAt?,
    List.getElem?_modify]
  simp only [hset]
  cases bytes[i / 8]? with
  | none => simp
  | some b =>
    by_cases hbyte : k = i / 8
    · simp only [hbyte, if_true, true_and, Option.map_eq_map, Option.map_some,
        testBit_or_one_shiftLeft b h]
      by_cases hplace : place = i % 8 <;> simp [hplace]
    · simp [hbyte]

/-! ## One flag written after another -/

/-- A writer has been given `given` flags. The next one goes into the last of its bytes, or into a
new one when that is full. -/
structure Writer where
  bytes : Bytes
  given : Nat

namespace Writer

def empty : Writer := ⟨[], 0⟩

/-- The bytes, with a place for the next flag in the last of them. -/
def room (w : Writer) : Bytes := if w.given % 8 = 0 then w.bytes ++ [0] else w.bytes

def push (w : Writer) (flag : Bool) : Writer :=
  let place := UInt8.ofNat (w.given % 8)
  ⟨if flag then w.room.modify (w.room.length - 1) (· ||| 1 <<< place) else w.room, w.given + 1⟩

def ofFlags (flags : List Bool) : Writer := flags.foldl push empty

/-- What has been given to the writer is what it holds. -/
structure Records (w : Writer) (flags : List Bool) : Prop where
  given : w.given = flags.length
  holds : Holds flags w.bytes

theorem records_empty : empty.Records [] := ⟨rfl, holds_pack []⟩

/-- There is a place for the next flag, and it is clear. -/
theorem Records.room {w : Writer} {flags : List Bool} (h : w.Records flags) :
    w.room.length = flags.length / 8 + 1 ∧
      ∃ pad, w.room.flatMap bitsOf = flags ++ false :: List.replicate pad false := by
  have hlength := h.holds.length
  have hbits := h.holds.flatMap_bitsOf
  rw [Writer.room, h.given]
  split
  · rename_i hfull
    have hpad : 8 * w.bytes.length - flags.length = 0 := by omega
    refine ⟨by rw [List.length_append, List.length_singleton]; omega, 7, ?_⟩
    rw [List.flatMap_append, hbits, hpad, List.replicate_zero, List.append_nil]
    rfl
  · rename_i hopen
    obtain ⟨pad, hpad⟩ := Nat.exists_eq_add_one_of_ne_zero
      (show 8 * w.bytes.length - flags.length ≠ 0 by omega)
    refine ⟨by omega, pad, ?_⟩
    rw [hbits, hpad, List.replicate_succ]

theorem length_push (w : Writer) (flag : Bool) : (w.push flag).bytes.length = w.room.length := by
  cases flag with
  | false => rfl
  | true => exact List.length_modify _ _ _

/-- One more flag given is one more flag held. -/
theorem Records.push {w : Writer} {flags : List Bool} (h : w.Records flags) (flag : Bool) :
    (w.push flag).Records (flags ++ [flag]) := by
  obtain ⟨hroom, pad, hbits⟩ := h.room
  have hlength : (w.push flag).bytes.length = ((flags ++ [flag]).length + 7) / 8 := by
    rw [length_push, hroom, List.length_append, List.length_singleton]
    omega
  have hpushed : (w.push flag).bytes.flatMap bitsOf =
      flags ++ [flag] ++ List.replicate pad false := by
    rw [List.append_assoc, List.singleton_append]
    cases flag with
    | false => exact hbits
    | true =>
      have hplace : 8 * (w.room.length - 1) + w.given % 8 = flags.length := by
        rw [hroom, h.given]
        omega
      simp only [Writer.push, if_true]
      rw [flatMap_bitsOf_modify _ _ (Nat.mod_lt _ (by decide)), hplace, hbits,
        List.set_append_right _ _ (Nat.le_refl _), Nat.sub_self, List.set_cons_zero]
  refine ⟨?_, holds_of_flatMap_bitsOf hlength hpushed⟩
  rw [Writer.push, h.given, List.length_append, List.length_singleton]

theorem Records.foldl {w : Writer} {flags : List Bool} (h : w.Records flags) (more : List Bool) :
    (more.foldl Writer.push w).Records (flags ++ more) := by
  induction more generalizing w flags with
  | nil => rwa [List.append_nil]
  | cons flag more ih =>
    rw [List.foldl_cons, List.append_cons]
    exact ih (h.push flag)

theorem records_ofFlags (flags : List Bool) : (ofFlags flags).Records flags :=
  records_empty.foldl flags

end Writer

/-- To pack a row of flags is to give them to a writer in turn. -/
theorem bytes_ofFlags (flags : List Bool) : (Writer.ofFlags flags).bytes = pack flags :=
  (Writer.records_ofFlags flags).holds.eq_pack

/-! ## One flag read after another -/

namespace Reader

/-- The reader of some bytes that has taken `n` of their flags. -/
def behind (bytes : Bytes) (n : Nat) : Reader := ⟨bytes.drop (n / 8), n⟩

theorem behind_zero (bytes : Bytes) : behind bytes 0 = ofBytes bytes := rfl

/-- The flag that is taken next is the one in place `n`, if there is such a place. -/
theorem next?_behind (bytes : Bytes) (n : Nat) :
    (behind bytes n).next? = (flagAt? bytes n).map fun flag => (flag, behind bytes (n + 1)) := by
  rw [next?, flagAt?]
  by_cases hn : n / 8 < bytes.length
  · simp only [behind, List.drop_eq_getElem_cons hn, List.getElem?_eq_getElem hn, Option.map_some]
    by_cases hlast : n % 8 = 7
    · have hbyte : (n + 1) / 8 = n / 8 + 1 := by omega
      rw [if_pos hlast, hbyte]
    · have hbyte : (n + 1) / 8 = n / 8 := by omega
      rw [if_neg hlast, hbyte, List.drop_eq_getElem_cons hn]
  · have hle := Nat.le_of_not_lt hn
    simp only [behind, List.drop_eq_nil_of_le hle, List.getElem?_eq_none hle, Option.map_none]

theorem rest_behind (bytes : Bytes) (n : Nat) :
    (behind bytes n).rest = (bytes.flatMap bitsOf).drop n := by
  apply List.ext_getElem?
  intro i
  have hbyte : n / 8 + (n % 8 + i) / 8 = (n + i) / 8 := by omega
  have hplace : (n % 8 + i) % 8 = (n + i) % 8 := by omega
  rw [rest, behind, List.getElem?_drop, List.getElem?_drop, getElem?_flatMap_bitsOf,
    getElem?_flatMap_bitsOf, flagAt?, flagAt?, List.getElem?_drop, hbyte, hplace]

theorem take?_behind {bytes : Bytes} {n k : Nat} (h : n + k ≤ 8 * bytes.length) :
    take? k (behind bytes n) =
      some (((bytes.flatMap bitsOf).drop n).take k, behind bytes (n + k)) := by
  induction k generalizing n with
  | zero => rfl
  | succ k ih =>
    have hn : n < (bytes.flatMap bitsOf).length := by
      rw [length_flatMap_bitsOf]
      omega
    have hflag : flagAt? bytes n = some (bytes.flatMap bitsOf)[n] := by
      rw [← getElem?_flatMap_bitsOf, List.getElem?_eq_getElem hn]
    have hmore : n + 1 + k = n + (k + 1) := by omega
    rw [take?, next?_behind, hflag]
    simp only [Option.map_some, Option.bind_eq_bind, Option.bind_some]
    rw [ih (by omega), hmore, List.drop_eq_getElem_cons hn, List.take_succ_cons]
    rfl

theorem take?_behind_eq_none {bytes : Bytes} {n k : Nat} (h : 8 * bytes.length < n + k)
    (hn : n ≤ 8 * bytes.length) : take? k (behind bytes n) = none := by
  apply take?_eq_none
  rw [rest_behind, List.length_drop, length_flatMap_bitsOf]
  omega

/-- Wherever a reader starts, what it has taken tells where it stands. -/
theorem eq_behind_of_take? {bytes : Bytes} {n k : Nat} {flags : List Bool} {r : Reader}
    (hn : n ≤ 8 * bytes.length) (h : take? k (behind bytes n) = some (flags, r)) :
    n + k ≤ 8 * bytes.length ∧ flags = ((bytes.flatMap bitsOf).drop n).take k ∧
      r = behind bytes (n + k) := by
  by_cases hk : n + k ≤ 8 * bytes.length
  · rw [take?_behind hk] at h
    cases h
    exact ⟨hk, rfl, rfl⟩
  · rw [take?_behind_eq_none (Nat.lt_of_not_le hk) hn] at h
    cases h

/-- What a reader makes of some bytes, whatever they are. -/
structure ReadsOut (bytes : Bytes) : Prop where
  succeeds : ∀ n, (∃ flags r, take? n (ofBytes bytes) = some (flags, r)) ↔ n ≤ 8 * bytes.length
  fails : ∀ n, 8 * bytes.length < n →
    Split.takeFlags n (ofBytes bytes) = .error (.unexpectedEof 1 0)
  reads : ∀ n flags r, take? n (ofBytes bytes) = some (flags, r) →
    flags.length = n ∧ (∀ i < n, flags[i]? = flagAt? bytes i) ∧
      r.consumed = (n + 7) / 8 ∧ r.consumed ≤ bytes.length
  /-- Flags that are read in two goes are those that are read in one. -/
  goes_on : ∀ n k first second r₁ r₂, take? n (ofBytes bytes) = some (first, r₁) →
    take? k r₁ = some (second, r₂) → take? (n + k) (ofBytes bytes) = some (first ++ second, r₂)

theorem readsOut (bytes : Bytes) : ReadsOut bytes := by
  have hzero : 0 ≤ 8 * bytes.length := Nat.zero_le _
  constructor
  case succeeds =>
    intro n
    constructor
    · rintro ⟨flags, r, h⟩
      have hle := (eq_behind_of_take? hzero h).1
      rwa [Nat.zero_add] at hle
    · intro hle
      exact ⟨_, _, take?_behind (show 0 + n ≤ _ by rwa [Nat.zero_add])⟩
  case fails =>
    intro n hlt
    rw [Split.takeFlags, ← behind_zero, take?_behind_eq_none (by omega) hzero]
  case reads =>
    intro n flags r h
    obtain ⟨hle, rfl, rfl⟩ := eq_behind_of_take? hzero h
    have hconsumed : (behind bytes (0 + n)).consumed = (n + 7) / 8 := by
      rw [consumed, behind, Nat.zero_add]
    refine ⟨?_, fun i hi => ?_, hconsumed, ?_⟩
    · rw [List.length_take, List.length_drop, length_flatMap_bitsOf]
      omega
    · rw [List.getElem?_take_of_lt hi, List.drop_zero, getElem?_flatMap_bitsOf]
    · rw [hconsumed]
      omega
  case goes_on =>
    intro n k first second r₁ r₂ hfirst hsecond
    obtain ⟨hn, rfl, rfl⟩ := eq_behind_of_take? hzero hfirst
    obtain ⟨hk, rfl, rfl⟩ := eq_behind_of_take? hn hsecond
    rw [← behind_zero, take?_behind (by omega), List.take_add, List.drop_drop, Nat.add_assoc]

end Reader

/-- Flags that are written one by one stand each in its place, in the bytes that `pack` gives, and
are read one by one in the same order, whatever follows; and any bytes give eight flags each. -/
theorem reads_written_flags (flags : List Bool) (values bytes : Bytes) :
    (Writer.ofFlags flags).bytes = pack flags ∧ Holds flags (pack flags) ∧
      (∃ r : Reader, Reader.take? flags.length (.ofBytes (pack flags ++ values)) = some (flags, r) ∧
        r.consumed = (flags.length + 7) / 8 ∧ (pack flags ++ values).drop r.consumed = values) ∧
      Reader.ReadsOut bytes := by
  refine ⟨bytes_ofFlags flags, holds_pack flags, ?_, Reader.readsOut bytes⟩
  obtain ⟨more, hrest⟩ := Reader.rest_ofBytes_pack flags values
  obtain ⟨r, htake, -, htaken⟩ := Reader.take?_of_rest hrest
  have hconsumed : r.consumed = (flags.length + 7) / 8 := by
    rw [Reader.consumed, htaken, Reader.ofBytes, Nat.zero_add]
  refine ⟨r, htake, hconsumed, ?_⟩
  rw [hconsumed, ← length_pack, List.drop_left]

/-- The ninth flag begins a second byte, behind which a value stands. -/
theorem reads_nine_flags :
    pack [true, false, false, true, false, false, false, false, true] = [0x09, 0x01] ∧
      (∃ r : Reader, Reader.take? 9 (.ofBytes [0x09, 0x01, 0x2A]) =
          some ([true, false, false, true, false, false, false, false, true], r) ∧
        r.consumed = 2 ∧ List.drop r.consumed [0x09, 0x01, 0x2A] = [(0x2A : UInt8)]) ∧
      Split.takeFlags 17 (.ofBytes [0x09, 0x01]) = .error (.unexpectedEof 1 0) := by
  obtain ⟨-, -, hback, hout⟩ := reads_written_flags
    [true, false, false, true, false, false, false, false, true] [0x2A] [0x09, 0x01]
  exact ⟨by decide, hback, hout.fails 17 (by decide)⟩

end SpaceLink.Flags
