import Mathlib.Data.Nat.Bitwise
import SpaceLink.Bytes

/-! # Words and their bytes

`word_ofWord` and `ofWord_word` say that a word and its bytes are two views of one thing.
-/
namespace SpaceLink.Bytes

theorem word_append_singleton (bytes : Bytes) (b : UInt8) :
    word (bytes ++ [b]) = 256 * word bytes + b.toNat := by
  simp [word]

theorem word_ofWord (width n : Nat) : word (ofWord width n) = n % 256 ^ width := by
  induction width generalizing n with
  | zero => simp [ofWord, word, Nat.mod_one]
  | succ w ih =>
    have hlast : (UInt8.ofNat n).toNat = n % 256 := by simp
    rw [ofWord, word_append_singleton, ih, hlast, Nat.pow_succ, Nat.mul_comm (256 ^ w) 256,
      Nat.mod_mul]
    omega

theorem word_ofWord_of_lt {width n : Nat} (h : n < 256 ^ width) : word (ofWord width n) = n := by
  rw [word_ofWord, Nat.mod_eq_of_lt h]

theorem word_ofWord_uint16 (w : UInt16) : UInt16.ofNat (word (ofWord 2 w.toNat)) = w := by
  rw [word_ofWord_of_lt w.toNat_lt, UInt16.ofNat_toNat]

theorem word_ofWord_uint32 (w : UInt32) : UInt32.ofNat (word (ofWord 4 w.toNat)) = w := by
  rw [word_ofWord_of_lt w.toNat_lt, UInt32.ofNat_toNat]

theorem word_ofWord_uint64 (w : UInt64) : UInt64.ofNat (word (ofWord 8 w.toNat)) = w := by
  rw [word_ofWord_of_lt w.toNat_lt, UInt64.ofNat_toNat]

theorem ofWord_append_singleton (bytes : Bytes) (b : UInt8) :
    ofWord (bytes ++ [b]).length (word (bytes ++ [b])) =
      ofWord bytes.length (word bytes) ++ [b] := by
  have hb : b.toNat < 256 := b.toNat_lt
  have hdiv : (256 * word bytes + b.toNat) / 256 = word bytes := by omega
  have hlast : UInt8.ofNat (256 * word bytes + b.toNat) = b := by
    apply UInt8.toNat_inj.1
    simp
  simp only [List.length_append, List.length_singleton, ofWord, word_append_singleton, hdiv, hlast]

theorem ofWord_word (bytes : Bytes) : ofWord bytes.length (word bytes) = bytes := by
  generalize hn : bytes.length = n
  induction n generalizing bytes with
  | zero => rw [List.length_eq_zero_iff.1 hn]; rfl
  | succ n ih =>
    rcases List.eq_nil_or_concat bytes with rfl | ⟨init, b, rfl⟩
    · simp at hn
    · rw [List.concat_eq_append] at hn ⊢
      have hi : init.length = n := by simpa using hn
      rw [← hn, ofWord_append_singleton, hi, ih init hi]

theorem word_lt (bytes : Bytes) : word bytes < 256 ^ bytes.length := by
  have h := congrArg word (ofWord_word bytes)
  rw [word_ofWord] at h
  rw [← h]
  exact Nat.mod_lt _ (Nat.pow_pos (by decide))

theorem ofWord_uint16_word {bytes : Bytes} (h : bytes.length = 2) :
    ofWord 2 (UInt16.ofNat (word bytes)).toNat = bytes := by
  have hlt : word bytes < 2 ^ 16 := by simpa [h] using word_lt bytes
  rw [UInt16.toNat_ofNat', Nat.mod_eq_of_lt hlt, ← h, ofWord_word]

end SpaceLink.Bytes
