import Mathlib.Data.Nat.Bitwise
import SpaceLink.Packet.Crc

/-! # What a checksum tells apart

Shifting a register is linear in its bits and loses none of them: the bit that comes in tells
whether the feedback was added. So two strings that differ in no more than two neighbouring bytes
bring the register to different states, and no bytes behind those bring the states together again.
-/
namespace SpaceLink

namespace CrcRegister

variable {r : CrcRegister}

/-- The bit that a shift takes out. -/
def out (r : CrcRegister) (state : UInt16) : Bool :=
  state.toNat.testBit (if r.lowFirst then 0 else 15)

def moved (r : CrcRegister) (state : UInt16) : UInt16 :=
  if r.lowFirst then state >>> 1 else state <<< 1

/-- The bit that a shift brings in is set in the feedback word. -/
def Marks (r : CrcRegister) : Prop :=
  if r.lowFirst then 0x8000 ≤ r.feedback.toNat else r.feedback.toNat % 2 = 1

theorem and_mask_eq_iff {state mask : UInt16} {k : Nat} (hmask : mask.toNat = 2 ^ k) :
    state &&& mask = mask ↔ state.toNat.testBit k = true := by
  have hpos : 2 ^ k ≠ 0 := Nat.two_pow_pos k |>.ne'
  rw [← UInt16.toNat_inj, UInt16.toNat_and, hmask, Nat.and_two_pow]
  cases state.toNat.testBit k <;> simp [hpos.symm]

theorem shift_eq (r : CrcRegister) (state : UInt16) :
    r.shift state = r.moved state ^^^ if r.out state then r.feedback else 0 := by
  unfold shift moved out
  cases r.lowFirst with
  | true =>
    simp only [if_true, and_mask_eq_iff (show (1 : UInt16).toNat = 2 ^ 0 by rfl)]
    split_ifs <;> simp
  | false =>
    simp only [Bool.false_eq_true, if_false,
      and_mask_eq_iff (show (0x8000 : UInt16).toNat = 2 ^ 15 by rfl)]
    split_ifs <;> simp

section Linear

theorem out_xor (r : CrcRegister) (a b : UInt16) : r.out (a ^^^ b) = (r.out a ^^ r.out b) := by
  rw [out, UInt16.toNat_xor, Nat.testBit_xor]
  rfl

theorem moved_xor (r : CrcRegister) (a b : UInt16) :
    r.moved (a ^^^ b) = r.moved a ^^^ r.moved b := by
  unfold moved
  split_ifs
  · exact UInt16.shiftRight_xor
  · exact UInt16.shiftLeft_xor

theorem shift_xor (r : CrcRegister) (a b : UInt16) :
    r.shift (a ^^^ b) = r.shift a ^^^ r.shift b := by
  have hfeedback : (if r.out (a ^^^ b) then r.feedback else 0) =
      (if r.out a then r.feedback else 0) ^^^ if r.out b then r.feedback else 0 := by
    rw [out_xor]
    cases r.out a <;> cases r.out b <;> simp
  rw [shift_eq, shift_eq, shift_eq, moved_xor, hfeedback]
  ac_rfl

theorem repeat_shift_xor (r : CrcRegister) (n : Nat) (a b : UInt16) :
    Nat.repeat r.shift n (a ^^^ b) = Nat.repeat r.shift n a ^^^ Nat.repeat r.shift n b := by
  induction n with
  | zero => rfl
  | succ n ih => rw [Nat.repeat, ih, shift_xor, Nat.repeat, Nat.repeat]

end Linear

section Numbers

theorem toNat_moved_of_low (hlow : r.lowFirst = true) (state : UInt16) :
    (r.moved state).toNat = state.toNat / 2 := by
  simp [moved, hlow, Nat.shiftRight_eq_div_pow]

theorem toNat_moved_of_high (hhigh : r.lowFirst = false) (state : UInt16) :
    (r.moved state).toNat = state.toNat * 2 % 2 ^ 16 := by
  simp [moved, hhigh, Nat.shiftLeft_eq]

theorem out_iff_of_low (hlow : r.lowFirst = true) (state : UInt16) :
    r.out state = true ↔ state.toNat % 2 = 1 := by
  simp [out, hlow]

theorem out_iff_of_high (hhigh : r.lowFirst = false) (state : UInt16) :
    r.out state = true ↔ 2 ^ 15 ≤ state.toNat := by
  have hlt := state.toNat_lt
  simp only [out, hhigh, Bool.false_eq_true, if_false, Nat.testBit_eq_decide_div_mod_eq,
    decide_eq_true_eq]
  omega

theorem shift_of_not_out {state : UInt16} (h : ¬r.out state = true) :
    r.shift state = r.moved state := by
  rw [shift_eq, if_neg h, UInt16.xor_zero]

/-- A register comes to zero from zero only. -/
theorem eq_zero_of_shift (hmarks : r.Marks) {state : UInt16} (h : r.shift state = 0) :
    state = 0 := by
  have hmoved : r.moved state = if r.out state then r.feedback else 0 :=
    UInt16.xor_eq_zero_iff.1 (shift_eq r state ▸ h)
  have hnumber := congrArg UInt16.toNat hmoved
  have hlt := state.toNat_lt
  have hzero : (0 : UInt16).toNat = 0 := rfl
  apply UInt16.toNat_inj.1
  unfold Marks at hmarks
  cases hfirst : r.lowFirst with
  | true =>
    rw [if_pos hfirst] at hmarks
    rw [toNat_moved_of_low hfirst] at hnumber
    split_ifs at hnumber with hbit
    · omega
    · rw [out_iff_of_low hfirst] at hbit
      omega
  | false =>
    rw [if_neg (by simp [hfirst])] at hmarks
    rw [toNat_moved_of_high hfirst] at hnumber
    split_ifs at hnumber with hbit
    · omega
    · rw [out_iff_of_high hfirst] at hbit
      omega

/-- Low bits that are clear go out without feedback. -/
theorem repeat_shift_of_low (hlow : r.lowFirst = true) {n m : Nat} {state : UInt16}
    (h : state.toNat = m * 2 ^ n) : (Nat.repeat r.shift n state).toNat = m := by
  induction n generalizing m with
  | zero => simpa [Nat.repeat] using h
  | succ n ih =>
    have heven : (Nat.repeat r.shift n state).toNat = m * 2 :=
      ih (by rw [h, pow_succ', Nat.mul_assoc])
    have hnot : ¬r.out (Nat.repeat r.shift n state) = true := by
      rw [out_iff_of_low hlow]
      omega
    rw [Nat.repeat, shift_of_not_out hnot, toNat_moved_of_low hlow, heven]
    omega

theorem repeat_shift_of_high (hhigh : r.lowFirst = false) {n : Nat} {state : UInt16}
    (h : state.toNat * 2 ^ n < 2 ^ 16) :
    (Nat.repeat r.shift n state).toNat = state.toNat * 2 ^ n := by
  induction n with
  | zero => simp [Nat.repeat]
  | succ n ih =>
    have hroom : state.toNat * 2 ^ n * 2 < 2 ^ 16 := by rwa [pow_succ, ← Nat.mul_assoc] at h
    have hbefore := ih (by omega)
    have hnot : ¬r.out (Nat.repeat r.shift n state) = true := by
      rw [out_iff_of_high hhigh]
      omega
    rw [Nat.repeat, shift_of_not_out hnot, toNat_moved_of_high hhigh, hbefore,
      Nat.mod_eq_of_lt hroom, Nat.mul_assoc, ← pow_succ]

end Numbers

theorem shift_injective (hmarks : r.Marks) : Function.Injective r.shift := by
  intro a b h
  have hzero : r.shift (a ^^^ b) = 0 := by rw [shift_xor, h, UInt16.xor_self]
  exact UInt16.xor_eq_zero_iff.1 (eq_zero_of_shift hmarks hzero)

theorem repeat_shift_injective (hmarks : r.Marks) (n : Nat) :
    Function.Injective (Nat.repeat r.shift n) := by
  induction n with
  | zero => exact fun _ _ h => h
  | succ n ih => exact fun _ _ h => ih (shift_injective hmarks h)

section Feeding

/-- Where a byte enters the register. -/
def entry (r : CrcRegister) (byte : UInt8) : UInt16 :=
  if r.lowFirst then byte.toUInt16 else byte.toUInt16 <<< 8

/-- Where a byte stands that enters eight shifts later. -/
def behind (r : CrcRegister) (byte : UInt8) : UInt16 :=
  if r.lowFirst then byte.toUInt16 <<< 8 else byte.toUInt16

theorem toNat_high (byte : UInt8) : (byte.toUInt16 <<< 8).toNat = byte.toNat * 2 ^ 8 := by
  have hlt := byte.toNat_lt
  rw [UInt16.toNat_shiftLeft]
  simp [Nat.shiftLeft_eq]
  omega

theorem feed_eq (r : CrcRegister) (state : UInt16) (byte : UInt8) :
    r.feed state byte = Nat.repeat r.shift 8 (state ^^^ r.entry byte) := rfl

theorem repeat_shift_behind (r : CrcRegister) (byte : UInt8) :
    Nat.repeat r.shift 8 (r.behind byte) = r.entry byte := by
  have hlt := byte.toNat_lt
  apply UInt16.toNat_inj.1
  cases hfirst : r.lowFirst with
  | true =>
    have hbehind : (r.behind byte).toNat = byte.toNat * 2 ^ 8 := by
      rw [behind, if_pos hfirst, toNat_high]
    rw [repeat_shift_of_low hfirst hbehind, entry, if_pos hfirst, UInt8.toNat_toUInt16]
  | false =>
    have hbehind : (r.behind byte).toNat = byte.toNat := by simp [behind, hfirst]
    rw [repeat_shift_of_high hfirst (by rw [hbehind]; omega), hbehind]
    simp only [entry, hfirst, Bool.false_eq_true, if_false, toNat_high]

theorem entry_xor (r : CrcRegister) (a b : UInt8) :
    r.entry (a ^^^ b) = r.entry a ^^^ r.entry b := by
  unfold entry
  split_ifs
  · exact UInt8.toUInt16_xor a b
  · rw [UInt8.toUInt16_xor, UInt16.shiftLeft_xor]

theorem behind_xor (r : CrcRegister) (a b : UInt8) :
    r.behind (a ^^^ b) = r.behind a ^^^ r.behind b := by
  unfold behind
  split_ifs
  · rw [UInt8.toUInt16_xor, UInt16.shiftLeft_xor]
  · exact UInt8.toUInt16_xor a b

/-- Two neighbouring bytes have no bit of the register in common. -/
theorem eq_zero_of_entry_eq_behind {a b : UInt8} (h : r.entry a = r.behind b) :
    a = 0 ∧ b = 0 := by
  have hnumber := congrArg UInt16.toNat h
  have ha := a.toNat_lt
  have hb := b.toNat_lt
  rw [← UInt8.toNat_inj, ← UInt8.toNat_inj]
  change a.toNat = 0 ∧ b.toNat = 0
  unfold entry behind at hnumber
  split_ifs at hnumber <;> rw [toNat_high, UInt8.toNat_toUInt16] at hnumber <;> omega

theorem feed_injective (hmarks : r.Marks) (byte : UInt8) :
    Function.Injective fun state => r.feed state byte := by
  intro a b h
  exact (UInt16.xor_left_inj _).1 (repeat_shift_injective hmarks 8 h)

theorem foldl_feed_injective (hmarks : r.Marks) (bytes : Bytes) :
    Function.Injective (bytes.foldl r.feed) := by
  induction bytes with
  | nil => exact fun _ _ h => h
  | cons byte rest ih => exact fun _ _ h => feed_injective hmarks byte (ih h)

/-- Feeding two bytes is feeding sixteen bits at once. -/
theorem feed_feed (r : CrcRegister) (state : UInt16) (a b : UInt8) :
    r.feed (r.feed state a) b =
      Nat.repeat r.shift 8 (Nat.repeat r.shift 8 (state ^^^ (r.entry a ^^^ r.behind b))) := by
  rw [feed_eq, feed_eq, ← repeat_shift_behind r b, ← repeat_shift_xor, UInt16.xor_assoc]

/-- The state behind two bytes tells which they were. -/
theorem eq_of_feed_feed (hmarks : r.Marks) {state : UInt16} {a b c d : UInt8}
    (h : r.feed (r.feed state a) b = r.feed (r.feed state c) d) : a = c ∧ b = d := by
  rw [feed_feed, feed_feed] at h
  have hinjective := repeat_shift_injective hmarks 8
  have hpairs : r.entry a ^^^ r.behind b = r.entry c ^^^ r.behind d :=
    (UInt16.xor_right_inj _).1 (hinjective (hinjective h))
  have hcrossed : r.entry (a ^^^ c) = r.behind (b ^^^ d) := by
    rw [entry_xor, behind_xor, ← UInt16.xor_eq_zero_iff]
    calc r.entry a ^^^ r.entry c ^^^ (r.behind b ^^^ r.behind d)
      _ = (r.entry a ^^^ r.behind b) ^^^ (r.entry c ^^^ r.behind d) := by ac_rfl
      _ = 0 := UInt16.xor_eq_zero_iff.2 hpairs
  -- One byte would have to stand where the other does.
  obtain ⟨ha, hb⟩ := eq_zero_of_entry_eq_behind hcrossed
  exact ⟨UInt8.xor_eq_zero_iff.1 ha, UInt8.xor_eq_zero_iff.1 hb⟩

theorem eq_of_run_pair (hmarks : r.Marks) {front back : Bytes} {a b c d : UInt8}
    (h : r.run (front ++ a :: b :: back) = r.run (front ++ c :: d :: back)) : a = c ∧ b = d := by
  simp only [run, List.foldl_append, List.foldl_cons] at h
  exact eq_of_feed_feed hmarks (foldl_feed_injective hmarks back h)

end Feeding
end CrcRegister

theorem Crc.marks_register (crc : Crc) : crc.register.Marks := by
  unfold CrcRegister.Marks
  cases crc <;> decide

end SpaceLink
