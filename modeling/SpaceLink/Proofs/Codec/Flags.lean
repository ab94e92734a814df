import Mathlib.Data.Nat.Bitwise
import SpaceLink.Codec.Flags

/-! # Flags read back

Bytes are seen as the row of their bits. Packing puts the flags in front of that row, and a reader
takes them off it one by one, wherever in a byte it stands.
-/
namespace SpaceLink.Flags

/-- The eight flags of a byte, the lowest first. -/
def bitsOf (b : UInt8) : List Bool := (List.range 8).map fun i => b.toNat.testBit i

@[simp] theorem length_bitsOf (b : UInt8) : (bitsOf b).length = 8 := by
  simp [bitsOf]

theorem length_flatMap_bitsOf (bytes : Bytes) :
    (bytes.flatMap bitsOf).length = 8 * bytes.length := by
  induction bytes with
  | nil => rfl
  | cons b bytes ih =>
    rw [List.flatMap_cons, List.length_append, length_bitsOf, ih, List.length_cons]
    omega

theorem drop_bitsOf (b : UInt8) {place : Nat} (h : place < 8) :
    (bitsOf b).drop place = b.toNat.testBit place :: (bitsOf b).drop (place + 1) := by
  rw [List.drop_eq_getElem_cons (by rw [length_bitsOf]; exact h)]
  simp [bitsOf]

theorem testBit_foldr (flags : List Bool) (i : Nat) :
    (flags.foldr (fun flag n => 2 * n + Bool.toNat flag) 0).testBit i = flags.getD i false := by
  induction flags generalizing i with
  | nil => exact Nat.zero_testBit i
  | cons flag flags ih =>
    rw [List.foldr_cons, ← Nat.bit_val]
    cases i with
    | zero => exact Nat.testBit_bit_zero flag _
    | succ i => rw [Nat.testBit_bit_succ, ih, List.getD_cons_succ]

theorem foldr_lt (flags : List Bool) :
    flags.foldr (fun flag n => 2 * n + Bool.toNat flag) 0 < 2 ^ flags.length := by
  induction flags with
  | nil => simp
  | cons flag flags ih =>
    have hflag : flag.toNat < 2 := flag.toNat_lt
    rw [List.foldr_cons, List.length_cons, Nat.pow_succ]
    omega

theorem testBit_byteOf {flags : List Bool} (h : flags.length ≤ 8) (i : Nat) :
    (byteOf flags).toNat.testBit i = flags.getD i false := by
  have hpow : 2 ^ flags.length ≤ 2 ^ 8 := Nat.pow_le_pow_right (by decide) h
  have hlt := Nat.lt_of_lt_of_le (foldr_lt flags) hpow
  rw [byteOf, UInt8.toNat_ofNat_of_lt' hlt, testBit_foldr]

theorem bitsOf_byteOf {flags : List Bool} (h : flags.length ≤ 8) :
    bitsOf (byteOf flags) = flags ++ List.replicate (8 - flags.length) false := by
  apply List.ext_getElem
  · rw [length_bitsOf, List.length_append, List.length_replicate]
    omega
  · intro i _ _
    simp only [bitsOf, List.getElem_map, List.getElem_range, testBit_byteOf h]
    rw [List.getElem_append]
    split
    · exact List.getD_eq_getElem _ _ _
    · rw [List.getElem_replicate, List.getD_eq_default _ _ (by omega)]

/-- What the last clause of `pack` is left with. -/
theorem length_lt_of_ne_eight {flags : List Bool}
    (h : ∀ b c d e f g i rest, flags = b :: c :: d :: e :: f :: g :: i :: rest → False) :
    flags.length < 7 := by
  rcases flags with _ | ⟨b, _ | ⟨c, _ | ⟨d, _ | ⟨e, _ | ⟨f, _ | ⟨g, _ | ⟨i, rest⟩⟩⟩⟩⟩⟩⟩
  case cons.cons.cons.cons.cons.cons.cons => exact (h b c d e f g i rest rfl).elim
  all_goals simp

/-- Packed flags stand at the front of the bits, and only clear bits follow them. -/
theorem bits_pack (flags : List Bool) :
    ∃ pad, (pack flags).flatMap bitsOf = flags ++ List.replicate pad false := by
  fun_induction pack flags with
  | case1 => exact ⟨0, rfl⟩
  | case2 a b c d e f g h rest ih =>
    obtain ⟨pad, hpad⟩ := ih
    refine ⟨pad, ?_⟩
    rw [List.flatMap_cons, hpad, bitsOf_byteOf (by simp)]
    simp
  | case3 a rest hshort =>
    have hlt := length_lt_of_ne_eight hshort
    refine ⟨8 - (a :: rest).length, ?_⟩
    rw [List.flatMap_cons, List.flatMap_nil, List.append_nil]
    exact bitsOf_byteOf (by rw [List.length_cons]; omega)

theorem length_pack (flags : List Bool) : (pack flags).length = (flags.length + 7) / 8 := by
  fun_induction pack flags with
  | case1 => rfl
  | case2 a b c d e f g h rest ih =>
    simp only [List.length_cons, ih]
    omega
  | case3 a rest hshort =>
    have hlt := length_lt_of_ne_eight hshort
    simp only [List.length_cons, List.length_nil]
    omega

/-- Fewer bytes than packed flags take do not hold all of them. -/
theorem bits_of_cut {flags : List Bool} {cut : Bytes} (hcut : cut <+: pack flags)
    (hne : cut ≠ pack flags) : ∃ missing, missing ≠ [] ∧ flags = cut.flatMap bitsOf ++ missing := by
  obtain ⟨pad, hpad⟩ := bits_pack flags
  have hlt : cut.length < (flags.length + 7) / 8 := by
    rw [← length_pack]
    exact Nat.lt_of_not_le fun hle => hne (hcut.eq_of_length_le hle)
  obtain ⟨behind, hbehind⟩ := hcut
  rw [← hbehind, List.flatMap_append] at hpad
  have hle : (cut.flatMap bitsOf).length < flags.length := by
    rw [length_flatMap_bitsOf]
    omega
  obtain ⟨missing, hmissing⟩ := List.prefix_of_prefix_length_le
    (hpad ▸ List.prefix_append (cut.flatMap bitsOf) (behind.flatMap bitsOf))
    (List.prefix_append flags (List.replicate pad false)) (Nat.le_of_lt hle)
  refine ⟨missing, ?_, hmissing.symm⟩
  rintro rfl
  rw [← hmissing, List.append_nil] at hle
  exact Nat.lt_irrefl _ hle

namespace Reader

/-- The bits that a reader has not taken. -/
def rest (r : Reader) : List Bool := (r.bytes.flatMap bitsOf).drop (r.taken % 8)

theorem next?_of_rest {r : Reader} {flag : Bool} {more : List Bool} (h : r.rest = flag :: more) :
    ∃ r' : Reader, r.next? = some (flag, r') ∧ r'.rest = more ∧ r'.taken = r.taken + 1 := by
  obtain ⟨bytes, taken⟩ := r
  cases bytes with
  | nil => simp [rest] at h
  | cons b bytes =>
    have hplace : taken % 8 < 8 := Nat.mod_lt _ (by decide)
    have hle : taken % 8 + 1 ≤ (bitsOf b).length := by
      rw [length_bitsOf]
      exact hplace
    have hcut : rest ⟨b :: bytes, taken⟩ =
        b.toNat.testBit (taken % 8) ::
          ((bitsOf b).drop (taken % 8 + 1) ++ bytes.flatMap bitsOf) := by
      simp only [rest, List.flatMap_cons]
      rw [List.drop_append_of_le_length (Nat.le_of_succ_le hle), drop_bitsOf b hplace,
        List.cons_append]
    obtain ⟨hflag, hmore⟩ := List.cons.inj (hcut.symm.trans h)
    refine ⟨_, by rw [next?, ← hflag], ?_, rfl⟩
    rw [← hmore]
    by_cases hlast : taken % 8 = 7
    · -- the last flag of the byte, so the reader steps on to the next one
      have hnext : (taken + 1) % 8 = 0 := by omega
      have hempty : (bitsOf b).drop 8 = [] := List.drop_eq_nil_of_le (by simp)
      simp only [rest, hlast, hnext, hempty, if_true, List.drop_zero, List.nil_append]
    · have hnext : (taken + 1) % 8 = taken % 8 + 1 := by omega
      simp only [rest, if_neg hlast, hnext, List.flatMap_cons]
      exact List.drop_append_of_le_length hle

theorem take?_of_rest {flags more : List Bool} {r : Reader} (h : r.rest = flags ++ more) :
    ∃ r' : Reader, take? flags.length r = some (flags, r') ∧ r'.rest = more ∧
      r'.taken = r.taken + flags.length := by
  induction flags generalizing r with
  | nil => exact ⟨r, rfl, h, rfl⟩
  | cons flag flags ih =>
    obtain ⟨r₁, hnext, hrest, htaken⟩ := next?_of_rest h
    obtain ⟨r₂, htake, hmore, htotal⟩ := ih hrest
    refine ⟨r₂, ?_, hmore, ?_⟩
    · rw [List.length_cons, take?, hnext]
      simp only [Option.bind_eq_bind, Option.bind_some, htake]
      rfl
    · rw [htotal, htaken, List.length_cons]
      omega

/-- A reader at the front of packed flags has them before it, whatever bytes follow. -/
theorem rest_ofBytes_pack (flags : List Bool) (bytes : Bytes) :
    ∃ more, (ofBytes (pack flags ++ bytes)).rest = flags ++ more := by
  obtain ⟨pad, hpad⟩ := bits_pack flags
  refine ⟨List.replicate pad false ++ bytes.flatMap bitsOf, ?_⟩
  simp only [rest, ofBytes, List.flatMap_append, hpad, List.append_assoc]
  rfl

theorem next?_of_rest_nil {r : Reader} (h : r.rest = []) : r.next? = none := by
  obtain ⟨bytes, taken⟩ := r
  cases bytes with
  | nil => rfl
  | cons b bytes =>
    have hplace : taken % 8 < 8 := Nat.mod_lt _ (by decide)
    have hlength := List.drop_eq_nil_iff.1 h
    rw [List.flatMap_cons, List.length_append, length_bitsOf] at hlength
    omega

theorem take?_eq_none {n : Nat} {r : Reader} (h : r.rest.length < n) : take? n r = none := by
  induction n generalizing r with
  | zero => exact absurd h (Nat.not_lt_zero _)
  | succ n ih =>
    rw [take?]
    cases hrest : r.rest with
    | nil => rw [next?_of_rest_nil hrest]; rfl
    | cons flag more =>
      obtain ⟨r', hnext, hmore, -⟩ := next?_of_rest hrest
      rw [hrest, List.length_cons] at h
      have hlt : r'.rest.length < n := by
        rw [hmore]
        exact Nat.lt_of_succ_lt_succ h
      simp only [hnext, Option.bind_eq_bind, Option.bind_some, ih hlt]
      rfl

/-- What a reader takes is the front of what it had before it. -/
theorem rest_of_take? {n : Nat} {r r' : Reader} {flags : List Bool}
    (h : take? n r = some (flags, r')) :
    flags.length = n ∧ r.rest = flags ++ r'.rest ∧ r'.taken = r.taken + n := by
  by_cases hn : n ≤ r.rest.length
  · have hlength : (r.rest.take n).length = n := by rw [List.length_take, Nat.min_eq_left hn]
    obtain ⟨r₁, htake, hrest, htaken⟩ := take?_of_rest (List.take_append_drop n r.rest).symm
    rw [hlength] at htake htaken
    rw [htake] at h
    cases h
    exact ⟨hlength, by rw [hrest, List.take_append_drop], htaken⟩
  · rw [take?_eq_none (Nat.lt_of_not_le hn)] at h
    cases h

end Reader

/-- The first flags of a byte, packed again, are the byte less its other bits. -/
theorem toNat_byteOf_take_bitsOf (b : UInt8) (n : Nat) :
    (byteOf ((bitsOf b).take n)).toNat = b.toNat % 2 ^ n := by
  apply Nat.eq_of_testBit_eq
  intro i
  rw [testBit_byteOf (by rw [List.length_take, length_bitsOf]; omega), Nat.testBit_mod_two_pow]
  rw [List.getD_eq_getElem?_getD, List.getElem?_take]
  by_cases hi : i < 8
  · by_cases hn : i < n <;> simp [bitsOf, hn, hi]
  · have hb : b.toNat < 2 ^ i :=
      Nat.lt_of_lt_of_le b.toNat_lt (Nat.pow_le_pow_right (by decide) (Nat.le_of_not_lt hi))
    by_cases hn : i < n <;> simp [bitsOf, hn, hi, Nat.testBit_lt_two_pow hb]

theorem pack_bitsOf_append (b : UInt8) (flags : List Bool) :
    pack (bitsOf b ++ flags) = b :: pack flags := by
  have hbyte : byteOf (bitsOf b) = b := by
    have h := toNat_byteOf_take_bitsOf b 8
    rw [List.take_of_length_le (by simp), Nat.mod_eq_of_lt b.toNat_lt] at h
    exact UInt8.toNat_inj.1 h
  conv_rhs => rw [← hbyte]
  rfl

theorem pack_of_short {flags : List Bool} (hpos : flags ≠ []) (hlt : flags.length < 8) :
    pack flags = [byteOf flags] := by
  fun_cases pack flags with
  | case1 => exact absurd rfl hpos
  | case2 =>
    simp only [List.length_cons] at hlt
    omega
  | case3 => rfl

/-- The bytes whose first `used` bits are flags, with the rest of the last flag byte cleared. -/
def clearUnused (used : Nat) (bytes : Bytes) : Bytes :=
  if used % 8 = 0 then bytes
  else bytes.modify (used / 8) fun b => b % UInt8.ofNat (2 ^ (used % 8))

/-- Nothing is set in the last flag byte but flags. -/
def UnusedClear (used : Nat) (bytes : Bytes) : Prop :=
  used % 8 ≠ 0 → ∀ b, bytes[used / 8]? = some b → ∀ i, used % 8 ≤ i → b.toNat.testBit i = false

theorem toNat_mod_two_pow (b : UInt8) {n : Nat} (h : n < 8) :
    (b % UInt8.ofNat (2 ^ n)).toNat = b.toNat % 2 ^ n := by
  have hpow : 2 ^ n < 2 ^ 8 := Nat.pow_lt_pow_right (by decide) h
  rw [UInt8.toNat_mod, UInt8.toNat_ofNat_of_lt' hpow]

theorem clearUnused_of_clear {used : Nat} {bytes : Bytes} (h : UnusedClear used bytes) :
    clearUnused used bytes = bytes := by
  rw [clearUnused]
  split
  · rfl
  · rename_i hused
    have hlt : used % 8 < 8 := Nat.mod_lt _ (by decide)
    apply List.ext_getElem?
    intro k
    rw [List.getElem?_modify]
    cases hk : bytes[k]? with
    | none => rfl
    | some b =>
      by_cases hplace : used / 8 = k
      · subst hplace
        have hb : b.toNat < 2 ^ (used % 8) := Nat.lt_pow_two_of_testBit _ (h hused b hk)
        simp only [if_true, Option.map_eq_map, Option.map_some, Option.some.injEq]
        exact UInt8.toNat_inj.1 (by rw [toNat_mod_two_pow b hlt, Nat.mod_eq_of_lt hb])
      · simp [hplace]

theorem drop_clearUnused (used : Nat) (bytes : Bytes) :
    (clearUnused used bytes).drop ((used + 7) / 8) = bytes.drop ((used + 7) / 8) := by
  rw [clearUnused]
  split
  · rfl
  · exact List.drop_modify_of_lt _ _ _ _ (by omega)

theorem clearUnused_cons {used : Nat} (h : 8 ≤ used) (b : UInt8) (bytes : Bytes) :
    clearUnused used (b :: bytes) = b :: clearUnused (used - 8) bytes := by
  have hmod : (used - 8) % 8 = used % 8 := by omega
  have hdiv : used / 8 = (used - 8) / 8 + 1 := by omega
  rw [clearUnused, clearUnused, hmod, hdiv]
  split <;> rfl

theorem pack_take_bitsOf (b : UInt8) {used : Nat} (hpos : 0 < used) (hlt : used < 8) :
    pack ((bitsOf b).take used) = [b % UInt8.ofNat (2 ^ used)] := by
  have hlength : ((bitsOf b).take used).length = used := by
    rw [List.length_take, length_bitsOf]
    omega
  have hbyte : byteOf ((bitsOf b).take used) = b % UInt8.ofNat (2 ^ used) :=
    UInt8.toNat_inj.1 (by rw [toNat_byteOf_take_bitsOf, toNat_mod_two_pow b hlt])
  rw [pack_of_short (List.length_pos_iff.1 (by omega)) (by omega), hbyte]

/-- The front of the bits packs to the bytes that it stands in, less what it leaves of the last. -/
theorem pack_take_bits {bytes : Bytes} {used : Nat} (h : used ≤ 8 * bytes.length) :
    pack ((bytes.flatMap bitsOf).take used) = (clearUnused used bytes).take ((used + 7) / 8) := by
  induction bytes generalizing used with
  | nil =>
    have hzero : used = 0 := by simpa using h
    subst hzero
    rfl
  | cons b bytes ih =>
    rw [List.length_cons] at h
    by_cases hfull : 8 ≤ used
    · have hcount : (used + 7) / 8 = (used - 8 + 7) / 8 + 1 := by omega
      rw [List.flatMap_cons, List.take_append, List.take_of_length_le (by simpa using hfull),
        length_bitsOf, pack_bitsOf_append, ih (by omega), clearUnused_cons hfull, hcount,
        List.take_succ_cons]
    · rw [List.flatMap_cons, List.take_append_of_le_length (by rw [length_bitsOf]; omega)]
      rcases Nat.eq_zero_or_pos used with rfl | hpos
      · rfl
      · have hmod : used % 8 = used := Nat.mod_eq_of_lt (by omega)
        have hdiv : used / 8 = 0 := by omega
        have hone : (used + 7) / 8 = 1 := by omega
        rw [pack_take_bitsOf b hpos (by omega), clearUnused, hmod, hdiv,
          if_neg (Nat.pos_iff_ne_zero.1 hpos), hone]
        rfl

/-- Flags that stand at the front of some bytes, packed again and followed by what is behind their
last byte, give the bytes less the bits that are no flags. -/
theorem pack_append_drop {bytes : Bytes} {flags more : List Bool}
    (h : bytes.flatMap bitsOf = flags ++ more) :
    pack flags ++ bytes.drop ((flags.length + 7) / 8) = clearUnused flags.length bytes := by
  have hle : flags.length ≤ 8 * bytes.length := by
    rw [← length_flatMap_bitsOf, h]
    exact (List.prefix_append _ _).length_le
  have hpack := pack_take_bits hle
  rw [h, List.take_left] at hpack
  rw [hpack, ← drop_clearUnused, List.take_append_drop]

end SpaceLink.Flags
