import SpaceLink.Text.Numeral

/-! # What a numeral says

A numeral of decimal digits has the value of its digits, however many zeros it begins with, and may
have a plus sign in front. A hexadecimal digit is one of sixteen, in either case.
-/
namespace SpaceLink.Text

/-- One digit at least, and nothing but decimal digits, of the value `n`. -/
structure IsDigits (text : List Char) (n : Nat) : Prop where
  ne_nil : text ≠ []
  isDigit : ∀ c ∈ text, c.isDigit = true
  value_eq : Nat.ofDigitChars 10 text 0 = n

/-- An unsigned numeral of a number up to `max`. -/
def IsUnsigned (max : Nat) (text : List Char) (n : Nat) : Prop :=
  n ≤ max ∧ (IsDigits text n ∨ ∃ digits, text = '+' :: digits ∧ IsDigits digits n)

variable {text : List Char} {max n : Nat}

theorem foldlM_digit?_eq_some_iff {start : Nat} :
    text.foldlM (fun n c => (digit? c).map (10 * n + ·)) start = some n ↔
      (∀ c ∈ text, c.isDigit = true) ∧ Nat.ofDigitChars 10 text start = n := by
  induction text generalizing start with
  | nil => simp [Nat.ofDigitChars]
  | cons c text ih =>
    rw [List.foldlM_cons, digit?]
    by_cases hc : c.isDigit = true
    · simp [hc, ih, Nat.ofDigitChars]
    · simp [hc]

theorem digits?_eq_some_iff : digits? text = some n ↔ IsDigits text n := by
  cases text with
  | nil => exact ⟨(nomatch ·), fun h => absurd rfl h.ne_nil⟩
  | cons c text =>
    refine foldlM_digit?_eq_some_iff.trans ?_
    exact ⟨fun ⟨hdigits, hvalue⟩ => ⟨by simp, hdigits, hvalue⟩,
      fun ⟨_, hdigits, hvalue⟩ => ⟨hdigits, hvalue⟩⟩

theorem not_isDigits_plus (digits : List Char) : ¬IsDigits ('+' :: digits) n :=
  fun h => absurd (h.isDigit '+' List.mem_cons_self) (by decide)

theorem unsigned?_eq_some_iff {text : String} :
    unsigned? max text = some n ↔ IsUnsigned max text.toList n := by
  rw [unsigned?, IsUnsigned]
  simp only [Option.filter_eq_some_iff, decide_eq_true_eq, digits?_eq_some_iff]
  rw [and_comm]
  refine and_congr_right fun _ => ?_
  split
  · rename_i digits heq
    rw [heq]
    constructor
    · exact fun h => .inr ⟨digits, rfl, h⟩
    · rintro (h | ⟨_, heq, h⟩)
      · exact absurd h (not_isDigits_plus digits)
      · cases heq
        exact h
  · rename_i hplus
    constructor
    · exact .inl
    · rintro (h | ⟨digits, heq, -⟩)
      · exact h
      · exact absurd heq (hplus digits)

theorem word16?_eq_some_iff {w : UInt16} :
    word16? text = some w ↔ IsUnsigned 65535 text w.toNat := by
  rw [word16?, Option.map_eq_some_iff]
  simp only [unsigned?_eq_some_iff, String.toList_ofList]
  constructor
  · rintro ⟨n, hn, rfl⟩
    rwa [UInt16.toNat_ofNat_of_lt' (Nat.lt_succ_of_le hn.1)]
  · intro h
    exact ⟨w.toNat, h, UInt16.ofNat_toNat⟩

theorem IsUnsigned.ne_nil (h : IsUnsigned max text n) : text ≠ [] := by
  obtain ⟨-, hdigits | ⟨digits, rfl, -⟩⟩ := h
  · exact hdigits.ne_nil
  · exact List.cons_ne_nil _ _

theorem IsUnsigned.mono {limit : Nat} (h : IsUnsigned max text n) (hn : n ≤ limit) :
    IsUnsigned limit text n := ⟨hn, h.2⟩

theorem isDigits_toDigits (n : Nat) : IsDigits (Nat.toDigits 10 n) n where
  ne_nil := Nat.toDigits_ne_nil
  isDigit _ := Nat.isDigit_of_mem_toDigits (by decide) (by decide)
  value_eq := Nat.ofDigitChars_toDigits (by decide) (by decide)

/-- What a number is printed as is a numeral of it. -/
theorem isUnsigned_toString (h : n ≤ max) : IsUnsigned max (toString n).toList n := by
  rw [Nat.toString_eq_repr, Nat.repr_eq_ofList_toDigits, String.toList_ofList]
  exact ⟨h, .inl (isDigits_toDigits n)⟩

/-! ## Hexadecimal digits -/

/-- The digit of a number below sixteen, in either case. -/
def IsHexDigit (c : Char) (n : Nat) : Prop := n < 16 ∧ (c = hexDigit false n ∨ c = hexDigit true n)

instance (c : Char) (n : Nat) : Decidable (IsHexDigit c n) := inferInstanceAs (Decidable (_ ∧ _))

/-- The characters of a range are those that are so many places behind its first. -/
theorem exists_ofNat_of_le {first c last : Char} (hfirst : first ≤ c) (hlast : c ≤ last) :
    ∃ i : Fin (last.toNat - first.toNat + 1), c = Char.ofNat (first.toNat + i) := by
  have hfirst : first.toNat ≤ c.toNat := hfirst
  have hlast : c.toNat ≤ last.toNat := hlast
  refine ⟨⟨c.toNat - first.toNat, by omega⟩, ?_⟩
  rw [show first.toNat + (c.toNat - first.toNat) = c.toNat by omega, Char.ofNat_toNat]

theorem isHexDigit_of_hexDigit? {c : Char} (h : hexDigit? c = some n) : IsHexDigit c n := by
  rw [hexDigit?] at h
  split at h
  · rename_i hdigit
    cases h
    obtain ⟨hfirst, hlast⟩ := Char.isDigit_iff_toNat.1 hdigit
    have hfirst : '0' ≤ c := hfirst
    have hlast : c ≤ '9' := hlast
    obtain ⟨i, rfl⟩ := exists_ofNat_of_le hfirst hlast
    revert i
    decide
  · split at h
    · rename_i hletter
      cases h
      obtain ⟨i, rfl⟩ := exists_ofNat_of_le hletter.1 hletter.2
      revert i
      decide
    · split at h
      · rename_i hletter
        cases h
        obtain ⟨i, rfl⟩ := exists_ofNat_of_le hletter.1 hletter.2
        revert i
        decide
      · cases h

theorem hexDigit?_eq_some_iff {c : Char} : hexDigit? c = some n ↔ IsHexDigit c n := by
  refine ⟨isHexDigit_of_hexDigit?, ?_⟩
  rintro ⟨hn, rfl | rfl⟩
  · exact hexDigit?_hexDigit false n hn
  · exact hexDigit?_hexDigit true n hn

/-- Of the letters only the case is free. -/
theorem isHexDigit_iff_toLower {c : Char} : IsHexDigit c n ↔ n < 16 ∧ c.toLower = hexDigit false n := by
  refine and_congr_right fun hn => ?_
  constructor
  · have all : ∀ n : Fin 16, (hexDigit false n).toLower = hexDigit false n ∧
        (hexDigit true n).toLower = hexDigit false n := by decide
    rintro (rfl | rfl)
    · exact (all ⟨n, hn⟩).1
    · exact (all ⟨n, hn⟩).2
  · intro h
    by_cases hupper : 'A' ≤ c ∧ c ≤ 'Z'
    · obtain ⟨i, rfl⟩ := exists_ofNat_of_le hupper.1 hupper.2
      have all : ∀ i : Fin 26, ∀ n : Fin 16,
          (Char.ofNat ('A'.toNat + i)).toLower = hexDigit false n →
          Char.ofNat ('A'.toNat + i) = hexDigit true n := by decide
      exact .inr (all i ⟨n, hn⟩ h)
    · have hsame : c.toLower = c := dif_neg hupper
      exact .inl (hsame ▸ h)

end SpaceLink.Text
