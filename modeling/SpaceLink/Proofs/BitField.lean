import Mathlib.Data.Nat.Bitwise
import SpaceLink.BitField

/-! # Laws of bit fields

What single bits do decides every law. `testBit_extract` and `testBit_insertLow` say it for reading
and writing; that a field reads back what was written, and that fields which lie apart do not
disturb each other, follows bit by bit. `writes_own_bits` has them all together.
-/
namespace SpaceLink.BitField

theorem shift_lt (f : BitField) : f.shift < 64 := by
  have hw := f.width_pos
  have he := f.end_le
  omega

theorem toNat_ones {width : Nat} (h : width ≤ 64) : (ones width).toNat = 2 ^ width - 1 := by
  unfold ones
  split
  · have hw : width = 64 := by omega
    subst hw
    decide
  · have hlt : width < 64 := by omega
    have hpow : 2 ^ width < 2 ^ 64 := Nat.pow_lt_pow_right (by decide) hlt
    have hone : (1 <<< UInt64.ofNat width : UInt64).toNat = 2 ^ width := by
      rw [UInt64.toNat_shiftLeft, UInt64.toNat_ofNat', Nat.mod_eq_of_lt (by omega : width < 2 ^ 64),
        Nat.mod_eq_of_lt hlt, UInt64.toNat_one, Nat.shiftLeft_eq, Nat.one_mul, Nat.mod_eq_of_lt hpow]
    have hle : (1 : UInt64) ≤ 1 <<< UInt64.ofNat width := by
      rw [UInt64.le_iff_toNat_le, hone]
      exact Nat.one_le_two_pow
    rw [UInt64.toNat_sub_of_le _ _ hle, hone, UInt64.toNat_one]

theorem toNat_max (f : BitField) : f.max.toNat = 2 ^ f.width - 1 := by
  have he := f.end_le
  exact toNat_ones (by omega)

theorem toNat_shift (f : BitField) : (UInt64.ofNat f.shift).toNat % 64 = f.shift := by
  have hs := f.shift_lt
  rw [UInt64.toNat_ofNat', Nat.mod_eq_of_lt (by omega : f.shift < 2 ^ 64), Nat.mod_eq_of_lt hs]

theorem toNat_extract (f : BitField) (word : UInt64) :
    (f.extract word).toNat = word.toNat / 2 ^ f.shift % 2 ^ f.width := by
  rw [extract, UInt64.toNat_and, UInt64.toNat_shiftRight, toNat_shift, toNat_max,
    Nat.and_two_pow_sub_one_eq_mod, Nat.shiftRight_eq_div_pow]

theorem testBit_extract (f : BitField) (word : UInt64) (i : Nat) :
    (f.extract word).toNat.testBit i =
      (decide (i < f.width) && word.toNat.testBit (i + f.shift)) := by
  rw [toNat_extract, Nat.testBit_mod_two_pow, Nat.testBit_div_two_pow]

/-- Bit `i` of a word that holds ones in the place of the field and nothing else. -/
theorem testBit_covered (f : BitField) (i : Nat) :
    (f.max <<< UInt64.ofNat f.shift).toNat.testBit i =
      decide (f.shift ≤ i ∧ i < f.shift + f.width) := by
  have he := f.end_le
  rw [UInt64.toNat_shiftLeft, toNat_shift, toNat_max, Nat.testBit_mod_two_pow,
    Nat.testBit_shiftLeft, Nat.testBit_two_pow_sub_one]
  rw [Bool.eq_iff_iff]
  simp only [Bool.and_eq_true, decide_eq_true_eq]
  omega

theorem testBit_not (word : UInt64) (i : Nat) :
    (~~~word).toNat.testBit i = (decide (i < 64) && !word.toNat.testBit i) := by
  have hlt : word.toNat < 2 ^ 64 := word.toNat_lt
  have heq : (~~~word).toNat = 2 ^ 64 - (word.toNat + 1) := by
    rw [UInt64.toNat_not, UInt64.size]
    omega
  rw [heq, Nat.testBit_two_pow_sub_succ hlt]

theorem testBit_insertLow (f : BitField) (word value : UInt64) (i : Nat) :
    (f.insertLow word value).toNat.testBit i =
      if f.shift ≤ i ∧ i < f.shift + f.width then value.toNat.testBit (i - f.shift)
      else word.toNat.testBit i := by
  have he := f.end_le
  simp only [insertLow, UInt64.toNat_or, UInt64.toNat_and, Nat.testBit_or, Nat.testBit_and,
    testBit_not, testBit_covered]
  by_cases hin : f.shift ≤ i ∧ i < f.shift + f.width
  · have hi : i < 64 := by omega
    simp only [hin, and_self, decide_true, Bool.not_true, Bool.and_false, Bool.false_or,
      Bool.and_true, if_true]
    rw [UInt64.toNat_shiftLeft, toNat_shift, Nat.testBit_mod_two_pow, Nat.testBit_shiftLeft]
    simp [hi, hin.1]
  · simp only [hin, decide_false, Bool.not_false, Bool.and_true, Bool.and_false, Bool.or_false,
      if_false]
    by_cases hi : i < 64
    · simp [hi]
    · have hword : word.toNat < 2 ^ i :=
        word.toNat_lt.trans_le (Nat.pow_le_pow_right (by decide) (by omega))
      simp [hi, Nat.testBit_lt_two_pow hword]

/-- A field carried from one word into another. -/
theorem testBit_insertLow_extract (f : BitField) (word source : UInt64) (i : Nat) :
    (f.insertLow word (f.extract source)).toNat.testBit i =
      if f.shift ≤ i ∧ i < f.shift + f.width then source.toNat.testBit i
      else word.toNat.testBit i := by
  rw [testBit_insertLow]
  by_cases hin : f.shift ≤ i ∧ i < f.shift + f.width
  · have hi : i - f.shift < f.width := by omega
    rw [if_pos hin, if_pos hin, testBit_extract, Nat.sub_add_cancel hin.1, decide_eq_true hi,
      Bool.true_and]
  · rw [if_neg hin, if_neg hin]

theorem extract_lt (f : BitField) (word : UInt64) : (f.extract word).toNat < 2 ^ f.width := by
  rw [toNat_extract]
  exact Nat.mod_lt _ (Nat.two_pow_pos _)

theorem testBit_of_le {word : UInt64} {n i : Nat} (h : word.toNat < 2 ^ n) (hi : n ≤ i) :
    word.toNat.testBit i = false :=
  Nat.testBit_lt_two_pow (h.trans_le (Nat.pow_le_pow_right (by decide) hi))

theorem eq_of_testBit {a b : UInt64} (h : ∀ i, a.toNat.testBit i = b.toNat.testBit i) : a = b :=
  UInt64.toNat_inj.1 (Nat.eq_of_testBit_eq h)

theorem toNat_extract_insertLow (f : BitField) (word value : UInt64) :
    (f.extract (f.insertLow word value)).toNat = value.toNat % 2 ^ f.width := by
  apply Nat.eq_of_testBit_eq
  intro i
  rw [testBit_extract, testBit_insertLow, Nat.testBit_mod_two_pow]
  by_cases hi : i < f.width
  · have hin : f.shift ≤ i + f.shift ∧ i + f.shift < f.shift + f.width := by omega
    rw [if_pos hin, Nat.add_sub_cancel]
  · simp [hi]

theorem extract_insertLow (f : BitField) (word : UInt64) {value : UInt64}
    (h : value.toNat < 2 ^ f.width) : f.extract (f.insertLow word value) = value := by
  apply UInt64.toNat_inj.1
  rw [toNat_extract_insertLow, Nat.mod_eq_of_lt h]

def Apart (f g : BitField) : Prop := f.shift + f.width ≤ g.shift ∨ g.shift + g.width ≤ f.shift

instance (f g : BitField) : Decidable (f.Apart g) := inferInstanceAs (Decidable (_ ∨ _))

theorem extract_insertLow_of_apart {f g : BitField} (h : f.Apart g) (word value : UInt64) :
    f.extract (g.insertLow word value) = f.extract word := by
  apply eq_of_testBit
  intro i
  rw [testBit_extract, testBit_extract, testBit_insertLow]
  by_cases hi : i < f.width
  · have hout : ¬(g.shift ≤ i + f.shift ∧ i + f.shift < g.shift + g.width) := by
      rcases h with h | h <;> omega
    rw [if_neg hout]
  · simp [hi]

/-- Writing below bit `n` keeps a word below bit `n`. -/
theorem insertLow_lt {f : BitField} {n : Nat} (hf : f.shift + f.width ≤ n) {word : UInt64}
    (hword : word.toNat < 2 ^ n) (value : UInt64) : (f.insertLow word value).toNat < 2 ^ n := by
  apply Nat.lt_pow_two_of_testBit
  intro i hi
  have hout : ¬(f.shift ≤ i ∧ i < f.shift + f.width) := by omega
  rw [testBit_insertLow, if_neg hout]
  exact testBit_of_le hword hi

/-- Above a word that ends below the field, the field adds its value at its place. -/
theorem toNat_insertLow_of_lt {f : BitField} {word value : UInt64}
    (hword : word.toNat < 2 ^ f.shift) (hvalue : value.toNat < 2 ^ f.width) :
    (f.insertLow word value).toNat = 2 ^ f.shift * value.toNat + word.toNat := by
  apply Nat.eq_of_testBit_eq
  intro i
  rw [testBit_insertLow, Nat.testBit_two_pow_mul_add _ hword]
  by_cases hbelow : i < f.shift
  · have hout : ¬(f.shift ≤ i ∧ i < f.shift + f.width) := by omega
    rw [if_pos hbelow, if_neg hout]
  · rw [if_neg hbelow]
    by_cases hin : f.shift ≤ i ∧ i < f.shift + f.width
    · rw [if_pos hin]
    · rw [if_neg hin, testBit_of_le hword (by omega), testBit_of_le hvalue (by omega)]

theorem fits_iff (f : BitField) (value : UInt64) :
    f.fits value = true ↔ value.toNat < 2 ^ f.width := by
  have hbit (i : Nat) : (value &&& ~~~f.max).toNat.testBit i =
      (value.toNat.testBit i && (decide (i < 64) && !decide (i < f.width))) := by
    rw [UInt64.toNat_and, Nat.testBit_and, testBit_not, toNat_max, Nat.testBit_two_pow_sub_one]
  rw [fits, beq_iff_eq]
  constructor
  · intro h
    apply Nat.lt_pow_two_of_testBit
    intro i hi
    by_cases h64 : i < 64
    · have hz := hbit i
      rw [h] at hz
      simpa [h64, Nat.not_lt.2 hi] using hz.symm
    · exact testBit_of_le value.toNat_lt (Nat.le_of_not_lt h64)
  · intro h
    apply eq_of_testBit
    intro i
    rw [hbit]
    by_cases hi : i < f.width
    · simp [hi]
    · simp [testBit_of_le h (Nat.le_of_not_lt hi)]

theorem insert?_of_lt {f : BitField} {value : UInt64} (h : value.toNat < 2 ^ f.width)
    (word : UInt64) : f.insert? word value = some (f.insertLow word value) := by
  rw [insert?, if_pos ((f.fits_iff value).2 h)]

theorem insert?_eq_none {f : BitField} {value : UInt64} (h : ¬value.toNat < 2 ^ f.width)
    (word : UInt64) : f.insert? word value = none := by
  rw [insert?, if_neg (mt (f.fits_iff value).1 h)]

theorem of?_self (f : BitField) : of? f.shift f.width = some f := by
  rw [of?, dif_pos ⟨f.width_pos, f.end_le⟩]

theorem insertLow_extract (f : BitField) (word : UInt64) :
    f.insertLow word (f.extract word) = word := by
  apply eq_of_testBit
  intro i
  rw [testBit_insertLow_extract, ite_self]

/-- What has been written to a field before is lost. -/
theorem insertLow_insertLow (f : BitField) (word earlier value : UInt64) :
    f.insertLow (f.insertLow word earlier) value = f.insertLow word value := by
  apply eq_of_testBit
  intro i
  rw [testBit_insertLow, testBit_insertLow f word value]
  split
  · rfl
  · rename_i hout
    rw [testBit_insertLow, if_neg hout]

theorem insertLow_comm {f g : BitField} (h : f.Apart g) (word value other : UInt64) :
    g.insertLow (f.insertLow word value) other = f.insertLow (g.insertLow word other) value := by
  apply eq_of_testBit
  intro i
  simp only [testBit_insertLow]
  by_cases hf : f.shift ≤ i ∧ i < f.shift + f.width
  · have hg : ¬(g.shift ≤ i ∧ i < g.shift + g.width) := by
      rcases h with h | h <;> omega
    rw [if_neg hg, if_pos hf, if_pos hf]
  · rw [if_neg hf, if_neg hf]

theorem Apart.symm {f g : BitField} (h : f.Apart g) : g.Apart f := Or.symm h

theorem insert?_eq (f : BitField) (word value : UInt64) :
    f.insert? word value =
      if value.toNat < 2 ^ f.width then some (f.insertLow word value) else none := by
  split
  · rename_i hlt
    exact insert?_of_lt hlt word
  · rename_i hge
    exact insert?_eq_none hge word

/-- As long as there is room in the word, there is a field right above. -/
theorem exists_above? {f : BitField} {width : Nat} (hwidth : 0 < width)
    (hend : f.shift + f.width + width ≤ 64) :
    ∃ g, f.above? width = some g ∧ g.shift = f.shift + f.width ∧ g.width = width ∧ f.Apart g :=
  ⟨_, dif_pos ⟨hwidth, hend⟩, rfl, rfl, Or.inl (Nat.le_refl _)⟩

/-! ## Shifts within a word

The operations once more, with shifts that give nothing where a word would be shifted by its whole
size or by more. All of them give a result, so no shift goes that far.
-/

def shiftUp? (word : UInt64) (distance : Nat) : Option UInt64 :=
  if distance < 64 then some (word <<< UInt64.ofNat distance) else none

def shiftDown? (word : UInt64) (distance : Nat) : Option UInt64 :=
  if distance < 64 then some (word >>> UInt64.ofNat distance) else none

def ones? (width : Nat) : Option UInt64 :=
  if 64 ≤ width then some (UInt64.ofNat (UInt64.size - 1)) else (shiftUp? 1 width).map (· - 1)

def fits? (f : BitField) (value : UInt64) : Option Bool := do
  let max ← ones? f.width
  return value &&& ~~~max == 0

def extract? (f : BitField) (word : UInt64) : Option UInt64 := do
  let low ← shiftDown? word f.shift
  let max ← ones? f.width
  return low &&& max

def insertLow? (f : BitField) (word value : UInt64) : Option UInt64 := do
  let max ← ones? f.width
  let covered ← shiftUp? max f.shift
  let placed ← shiftUp? value f.shift
  return (word &&& ~~~covered) ||| (placed &&& covered)

theorem shiftUp?_eq (f : BitField) (word : UInt64) :
    shiftUp? word f.shift = some (word <<< UInt64.ofNat f.shift) := if_pos f.shift_lt

theorem shiftDown?_eq (f : BitField) (word : UInt64) :
    shiftDown? word f.shift = some (word >>> UInt64.ofNat f.shift) := if_pos f.shift_lt

/-- A mask is shifted into place only if it is narrower than a word. -/
theorem ones?_eq (width : Nat) : ones? width = some (ones width) := by
  rw [ones?, ones]
  split
  · rfl
  · rename_i hlt
    rw [shiftUp?, if_pos (Nat.lt_of_not_le hlt)]
    rfl

theorem fits?_eq (f : BitField) (value : UInt64) : f.fits? value = some (f.fits value) := by
  rw [fits?, ones?_eq]
  rfl

theorem extract?_eq (f : BitField) (word : UInt64) : f.extract? word = some (f.extract word) := by
  rw [extract?, shiftDown?_eq, ones?_eq]
  rfl

theorem insertLow?_eq (f : BitField) (word value : UInt64) :
    f.insertLow? word value = some (f.insertLow word value) := by
  simp only [insertLow?, ones?_eq, shiftUp?_eq, Option.bind_eq_bind, Option.bind_some]
  rfl

/-! ## The laws of one field -/

/-- What comes of writing `value` to a field of `word`. -/
structure Writes (f : BitField) (word value : UInt64) : Prop where
  read_back : (f.extract (f.insertLow word value)).toNat = value.toNat % 2 ^ f.width
  outside : ∀ i, ¬(f.shift ≤ i ∧ i < f.shift + f.width) →
    (f.insertLow word value).toNat.testBit i = word.toNat.testBit i
  same : f.insertLow word (f.extract word) = word
  overrides : ∀ earlier, f.insertLow (f.insertLow word earlier) value = f.insertLow word value
  inserts : f.insert? word value =
    if value.toNat < 2 ^ f.width then some (f.insertLow word value) else none
  /-- Fields that lie apart do not see each other, and the order of writing does not matter. -/
  apart : ∀ g : BitField, f.Apart g → g.extract (f.insertLow word value) = g.extract word ∧
    ∀ other, g.insertLow (f.insertLow word value) other = f.insertLow (g.insertLow word other) value
  above : ∀ width, 0 < width → f.shift + f.width + width ≤ 64 →
    ∃ g, f.above? width = some g ∧ g.shift = f.shift + f.width ∧ g.width = width ∧ f.Apart g
  shifts : f.fits? value = some (f.fits value) ∧ f.extract? word = some (f.extract word) ∧
    f.insertLow? word value = some (f.insertLow word value)

/-- Whatever its place and its width in a word of 64 bits, a field takes the low bits of a value,
gives them back, and leaves all other bits and fields alone. -/
theorem writes_own_bits {shift width : Nat} (hwidth : 0 < width) (hend : shift + width ≤ 64)
    (word value : UInt64) :
    ∃ f, of? shift width = some f ∧ f.shift = shift ∧ f.width = width ∧ f.Writes word value := by
  refine ⟨⟨shift, width, hwidth, hend⟩, dif_pos ⟨hwidth, hend⟩, rfl, rfl, ?_⟩
  exact
    { read_back := toNat_extract_insertLow _ word value
      outside := fun i hout => by rw [testBit_insertLow, if_neg hout]
      same := insertLow_extract _ word
      overrides := fun earlier => insertLow_insertLow _ word earlier value
      inserts := insert?_eq _ word value
      apart := fun g h =>
        ⟨extract_insertLow_of_apart h.symm word value, insertLow_comm h word value⟩
      above := fun _ hwidth hend => exists_above? hwidth hend
      shifts := ⟨fits?_eq _ value, extract?_eq _ word, insertLow?_eq _ word value⟩ }

/-- A field of 63 bits takes the low ones of a value of 64 bits, and the bit above it stays. -/
theorem writes_below_top_bit :
    ∃ f g, of? 0 63 = some f ∧ f.above? 1 = some g ∧
      (f.extract (f.insertLow 0x8000000000000001 0xFFFFFFFFFFFFFFFF)).toNat = 2 ^ 63 - 1 ∧
      g.extract (f.insertLow 0x8000000000000001 0xFFFFFFFFFFFFFFFF) = 1 ∧
      f.insert? 0x8000000000000001 0xFFFFFFFFFFFFFFFF = none := by
  obtain ⟨f, hf, hshift, hwidth, hwrites⟩ := writes_own_bits (show 0 < 63 by decide)
    (show 0 + 63 ≤ 64 by decide) 0x8000000000000001 0xFFFFFFFFFFFFFFFF
  obtain ⟨g, hg, -, -, hapart⟩ := hwrites.above 1 (by decide) (by omega)
  refine ⟨f, g, hf, hg, ?_, ?_, ?_⟩
  · rw [hwrites.read_back, hwidth]
    rfl
  · rw [(hwrites.apart g hapart).1]
    cases hf
    cases hg
    decide
  · rw [hwrites.inserts, hwidth]
    rfl

end SpaceLink.BitField
