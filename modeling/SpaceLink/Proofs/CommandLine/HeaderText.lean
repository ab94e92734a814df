import SpaceLink.CommandLine.Run
import SpaceLink.Proofs.Outcome
import SpaceLink.Proofs.Text.Blank
import SpaceLink.Proofs.Text.Numeral

/-! # Headers that are spelled in text

What counts of a text are the characters that are left when blanks, marks and separators are taken
away, and six bytes are read off them pair by pair. The pairs are two hexadecimal digits each, but for
one thing: a plus sign is read in front of a digit, as it is in front of a number.
-/
namespace SpaceLink.HeaderText

/-- `d` is left of a text without the blanks around it, the marks in front and the separators. -/
def Strips (text d : List Char) : Prop :=
  ∃ middle count rest, Text.Trims text middle ∧
    middle = (List.replicate count ['0', 'x']).flatten ++ rest ∧ ¬['0', 'x'] <+: rest ∧
    d = rest.filter fun c => !isSeparator c

/-- Two characters for each byte; `lead` says which of them may come first, and for what digit. -/
inductive Spells (lead : Char → Nat → Prop) : List Char → Bytes → Prop where
  | nil : Spells lead [] []
  | pair {a b : Char} {high low : Nat} {rest : List Char} {bytes : Bytes} (hhigh : lead a high)
      (hlow : Text.IsHexDigit b low) (hrest : Spells lead rest bytes) :
      Spells lead (a :: b :: rest) (UInt8.ofNat (16 * high + low) :: bytes)

/-- A digit, or the sign of a number of one digit. -/
def IsLead (c : Char) (n : Nat) : Prop := Text.IsHexDigit c n ∨ c = '+' ∧ n = 0

variable {text middle d rest : List Char} {bytes : Bytes}

/-! ## What is left of a text -/

theorem withoutMarks_of_not_prefix (h : ¬['0', 'x'] <+: text) : withoutMarks text = text := by
  rw [withoutMarks]
  rintro rest rfl
  exact h ⟨rest, rfl⟩

theorem withoutMarks_marks (count : Nat) (h : ¬['0', 'x'] <+: rest) :
    withoutMarks ((List.replicate count ['0', 'x']).flatten ++ rest) = rest := by
  induction count with
  | zero => exact withoutMarks_of_not_prefix h
  | succ count ih => exact ih

theorem exists_marks (text : List Char) :
    ∃ count, text = (List.replicate count ['0', 'x']).flatten ++ withoutMarks text ∧
      ¬['0', 'x'] <+: withoutMarks text := by
  fun_induction withoutMarks text with
  | case1 rest ih =>
    obtain ⟨count, happend, hprefix⟩ := ih
    refine ⟨count + 1, ?_, hprefix⟩
    rw [List.replicate_succ, List.flatten_cons, List.append_assoc, ← happend]
    rfl
  | case2 text hmarks =>
    refine ⟨0, rfl, ?_⟩
    rintro ⟨rest, rfl⟩
    exact hmarks rest rfl

theorem strips_iff : Strips text d ↔ d = digits text := by
  constructor
  · rintro ⟨middle, count, rest, hmiddle, hmarks, hprefix, rfl⟩
    rw [digits, ← hmiddle.eq_trim, hmarks, withoutMarks_marks count hprefix]
  · rintro rfl
    obtain ⟨count, hmarks, hprefix⟩ := exists_marks (Text.trim text)
    exact ⟨_, count, _, Text.trims_trim text, hmarks, hprefix, rfl⟩

/-- Where there is no mark, the blanks at the ends are separators like any other. -/
theorem digits_of_notMem (h : 'x' ∉ text) : digits text = text.filter fun c => !isSeparator c := by
  obtain ⟨⟨before, after, happend, hbefore, hafter⟩, -, -⟩ := Text.trims_trim text
  have hblank : ∀ blanks : List Char, (∀ c ∈ blanks, Text.isBlank c = true) →
      (blanks.filter fun c => !isSeparator c) = [] := by
    intro blanks hblanks
    rw [List.filter_eq_nil_iff]
    intro c hc
    simp [isSeparator, hblanks c hc]
  have hmarks : withoutMarks (Text.trim text) = Text.trim text := by
    refine withoutMarks_of_not_prefix ?_
    rintro ⟨rest, hrest⟩
    refine h ?_
    rw [happend, ← hrest]
    simp
  have hfilter := congrArg (List.filter fun c => !isSeparator c) happend
  rw [List.filter_append, List.filter_append, hblank before hbefore, hblank after hafter,
    List.nil_append, List.append_nil] at hfilter
  rw [digits, hmarks, hfilter]

/-! ## Pairs of characters -/

theorem Spells.length_eq {lead : Char → Nat → Prop} (h : Spells lead d bytes) :
    d.length = 2 * bytes.length := by
  induction h with
  | nil => rfl
  | pair _ _ _ ih =>
    rw [List.length_cons, List.length_cons, List.length_cons, ih]
    omega

theorem utf8Size_of_isHexDigit {c : Char} {n : Nat} (h : Text.IsHexDigit c n) : c.utf8Size = 1 := by
  have all : ∀ n : Fin 16, (Text.hexDigit false n).utf8Size = 1 ∧
      (Text.hexDigit true n).utf8Size = 1 := by decide
  obtain ⟨hn, rfl | rfl⟩ := h
  · exact (all ⟨n, hn⟩).1
  · exact (all ⟨n, hn⟩).2

theorem utf8Size_of_isLead {c : Char} {n : Nat} (h : IsLead c n) : c.utf8Size = 1 := by
  obtain h | ⟨rfl, -⟩ := h
  · exact utf8Size_of_isHexDigit h
  · rfl

theorem not_isHexDigit_plus (n : Nat) : ¬Text.IsHexDigit '+' n :=
  fun h => nomatch Text.hexDigit?_eq_some_iff.2 h

theorem lead_eq_some_iff {c : Char} {n : Nat} :
    (if c = '+' then some 0 else Text.hexDigit? c) = some n ↔ IsLead c n := by
  rw [IsLead, ← Text.hexDigit?_eq_some_iff]
  split
  · rename_i hplus
    subst hplus
    constructor
    · rintro ⟨⟩
      exact .inr ⟨rfl, rfl⟩
    · rintro (h | ⟨-, rfl⟩)
      · cases h
      · rfl
  · rename_i hplus
    simp [hplus]

theorem pairValue?_eq (a b : Char) :
    pairValue? a b = (if a = '+' then some 0 else Text.hexDigit? a).bind fun high =>
      (Text.hexDigit? b).map fun low => UInt8.ofNat (16 * high + low) := by
  rw [pairValue?]
  split <;> cases Text.hexDigit? b <;> rfl

theorem pairValue?_eq_some_iff {a b : Char} {byte : UInt8} :
    pairValue? a b = some byte ↔
      ∃ high, IsLead a high ∧ ∃ low, Text.IsHexDigit b low ∧ UInt8.ofNat (16 * high + low) = byte := by
  simp only [pairValue?_eq, Option.bind_eq_some_iff, Option.map_eq_some_iff, lead_eq_some_iff,
    Text.hexDigit?_eq_some_iff]

theorem spells_of_readPairs (h : readPairs d = .ok bytes) : Spells IsLead d bytes := by
  fun_induction readPairs d generalizing bytes with
  | case1 =>
    cases h
    exact .nil
  | case6 a b rest _ _ byte hbyte ih =>
    obtain ⟨later, hlater, rfl⟩ := exists_of_map_eq_ok h
    obtain ⟨high, hhigh, low, hlow, rfl⟩ := pairValue?_eq_some_iff.1 hbyte
    exact .pair hhigh hlow (ih hlater)
  | _ => cases h

theorem readPairs_of_spells (h : Spells IsLead d bytes) : readPairs d = .ok bytes := by
  induction h with
  | nil => rfl
  | @pair a b high low rest bytes hhigh hlow _ ih =>
    have ha := utf8Size_of_isLead hhigh
    have hb := utf8Size_of_isHexDigit hlow
    have hbyte := pairValue?_eq_some_iff.2 ⟨high, hhigh, low, hlow, rfl⟩
    rw [readPairs, if_neg (by omega), if_neg (by omega), hbyte, ih]
    rfl

theorem byteLength_of_spells (h : Spells IsLead d bytes) : byteLength d = 2 * bytes.length := by
  have hall : ∀ start, d.foldl (fun n c => n + c.utf8Size) start = start + 2 * bytes.length := by
    induction h with
    | nil => exact fun _ => rfl
    | pair hhigh hlow _ ih =>
      intro start
      rw [List.foldl_cons, List.foldl_cons, ih, utf8Size_of_isLead hhigh,
        utf8Size_of_isHexDigit hlow, List.length_cons]
      omega
  rw [byteLength, hall, Nat.zero_add]

theorem read_eq_ok_iff {text : String} : read text = .ok bytes ↔
    bytes.length = Header.size ∧ Spells IsLead (digits text.toList) bytes := by
  simp only [read]
  constructor
  · intro h
    split at h
    · rename_i hlength
      have hspells := spells_of_readPairs h
      rw [byteLength_of_spells hspells] at hlength
      exact ⟨by omega, hspells⟩
    · cases h
  · rintro ⟨hlength, hspells⟩
    rw [byteLength_of_spells hspells, hlength, if_pos rfl]
    exact readPairs_of_spells hspells

/-! ## Hexadecimal digits alone -/

theorem Spells.isLead (h : Spells Text.IsHexDigit d bytes) : Spells IsLead d bytes := by
  induction h with
  | nil => exact .nil
  | pair hhigh hlow _ ih => exact .pair (.inl hhigh) hlow ih

/-- Without a plus sign a pair is two digits. -/
theorem Spells.isHexDigit (h : Spells IsLead d bytes) (hplus : '+' ∉ d) :
    Spells Text.IsHexDigit d bytes := by
  induction h with
  | nil => exact .nil
  | pair hhigh hlow _ ih =>
    obtain ⟨hfirst, -, hlater⟩ := by simpa only [List.mem_cons, not_or] using hplus
    obtain hhigh | ⟨rfl, -⟩ := hhigh
    · exact .pair hhigh hlow (ih hlater)
    · exact absurd rfl hfirst

theorem Spells.forall_isHexDigit (h : Spells Text.IsHexDigit d bytes) :
    ∀ c ∈ d, ∃ n, Text.IsHexDigit c n := by
  induction h with
  | nil => exact List.forall_mem_nil _
  | pair hhigh hlow _ ih =>
    exact List.forall_mem_cons.2 ⟨⟨_, hhigh⟩, List.forall_mem_cons.2 ⟨⟨_, hlow⟩, ih⟩⟩

/-- Any even number of digits spells bytes. -/
theorem exists_spells {size : Nat} (hlength : d.length = 2 * size)
    (h : ∀ c ∈ d, ∃ n, Text.IsHexDigit c n) :
    ∃ bytes, bytes.length = size ∧ Spells Text.IsHexDigit d bytes := by
  induction size generalizing d with
  | zero =>
    obtain rfl := List.length_eq_zero_iff.1 hlength
    exact ⟨[], rfl, .nil⟩
  | succ size ih =>
    match d, hlength with
    | a :: b :: rest, hlength =>
      obtain ⟨⟨high, hhigh⟩, h⟩ := List.forall_mem_cons.1 h
      obtain ⟨⟨low, hlow⟩, h⟩ := List.forall_mem_cons.1 h
      obtain ⟨bytes, hsize, hspells⟩ :=
        ih (by rw [List.length_cons, List.length_cons] at hlength; omega) h
      exact ⟨_, congrArg (· + 1) hsize, .pair hhigh hlow hspells⟩

/-- What bytes are shown as spells them, also with capital letters here and there. -/
theorem spells_hexBytes (h : d.map Char.toLower = (Text.hexBytes bytes).toList) :
    Spells Text.IsHexDigit d bytes := by
  rw [Text.hexBytes, String.toList_ofList] at h
  induction bytes generalizing d with
  | nil =>
    obtain rfl := List.map_eq_nil_iff.1 h
    exact .nil
  | cons byte bytes ih =>
    have hbyte := byte.toNat_lt
    obtain ⟨a, others, rfl, ha, h⟩ := List.map_eq_cons_iff.1 h
    obtain ⟨b, rest, rfl, hb, h⟩ := List.map_eq_cons_iff.1 h
    have hvalue : UInt8.ofNat (16 * (byte.toNat / 16) + byte.toNat % 16) = byte := by
      rw [Nat.div_add_mod, UInt8.ofNat_toNat]
    rw [← hvalue]
    exact .pair (Text.isHexDigit_iff_toLower.2 ⟨by omega, ha⟩)
      (Text.isHexDigit_iff_toLower.2 ⟨by omega, hb⟩) (ih h)

theorem notMem_of_spells (h : Spells Text.IsHexDigit d bytes) : 'x' ∉ d := by
  intro hmem
  obtain ⟨n, hn⟩ := h.forall_isHexDigit 'x' hmem
  cases Text.hexDigit?_eq_some_iff.2 hn

theorem read_of_spells {text : String} (hlength : bytes.length = Header.size)
    (h : Spells Text.IsHexDigit (text.toList.filter fun c => !isSeparator c) bytes) :
    read text = .ok bytes := by
  have hmark : 'x' ∉ text.toList := by
    intro hmem
    exact notMem_of_spells h (List.mem_filter.2 ⟨hmem, by decide⟩)
  rw [read_eq_ok_iff, digits_of_notMem hmark]
  exact ⟨hlength, h.isLead⟩

/-! ## Which texts are headers -/

/-- What is read of a text of which `d` is left. -/
structure Reads (text : String) (d : List Char) : Prop where
  ok_iff : ∀ bytes, read text = .ok bytes ↔ bytes.length = Header.size ∧ Spells IsLead d bytes
  digits : '+' ∉ d →
    ((∃ bytes, read text = .ok bytes) ↔
      d.length = 2 * Header.size ∧ ∀ c ∈ d, ∃ n, Text.IsHexDigit c n) ∧
    ∀ bytes, read text = .ok bytes → Spells Text.IsHexDigit d bytes
  refused : ∀ error, read text = .error error →
    present text = .error ⟨ExitCode.usage, error.message⟩
  /-- Bytes that are shown as hexadecimal text are read back, whatever the case of each digit and
  wherever separators stand. -/
  shown : ∀ bytes written, bytes.length = Header.size →
    written.map Char.toLower = (Text.hexBytes bytes).toList →
    (text.toList.filter fun c => !isSeparator c) = written → read text = .ok bytes

/-- What is left of a text decides what is read, and nothing but twelve hexadecimal digits is read,
save that a plus sign in the first place of a pair stands for a zero. -/
theorem reads_stripped (text : String) :
    ∃ d, (∀ d', Strips text.toList d' ↔ d' = d) ∧ Reads text d := by
  refine ⟨digits text.toList, fun _ => strips_iff, ?_⟩
  refine
    { ok_iff := fun _ => read_eq_ok_iff
      digits := fun hplus => ⟨⟨?_, ?_⟩, ?_⟩
      refused := fun error h => by rw [present, h]; rfl
      shown := ?_ }
  · rintro ⟨bytes, h⟩
    obtain ⟨hlength, hspells⟩ := read_eq_ok_iff.1 h
    exact ⟨by rw [hspells.length_eq, hlength], (hspells.isHexDigit hplus).forall_isHexDigit⟩
  · rintro ⟨hlength, hall⟩
    obtain ⟨bytes, hsize, hspells⟩ := exists_spells hlength hall
    exact ⟨bytes, read_eq_ok_iff.2 ⟨hsize, hspells.isLead⟩⟩
  · intro bytes h
    exact (read_eq_ok_iff.1 h).2.isHexDigit hplus
  · rintro bytes written hlength hwritten rfl
    exact read_of_spells hlength (spells_hexBytes hwritten)

/-- Separators within a byte, in front and behind, and letters of both cases. -/
theorem reads_scattered : read " :1 9:23 40:2a 0:0 0:C:\u3000" =
    .ok [0x19, 0x23, 0x40, 0x2A, 0x00, 0x0C] := by
  obtain ⟨d, -, hreads⟩ := reads_stripped " :1 9:23 40:2a 0:0 0:C:\u3000"
  exact hreads.shown _ "1923402a000C".toList rfl (by decide) (by decide)

/-- A plus sign is left of the text and is no hexadecimal digit, and a header is read. -/
theorem reads_plus_sign :
    Strips "+923402a0009".toList "+923402a0009".toList ∧
      (∀ n, ¬Text.IsHexDigit '+' n) ∧
      read "+923402a0009" = .ok [0x09, 0x23, 0x40, 0x2A, 0x00, 0x09] := by
  exact ⟨strips_iff.2 (by decide), not_isHexDigit_plus, by decide⟩

end SpaceLink.HeaderText
