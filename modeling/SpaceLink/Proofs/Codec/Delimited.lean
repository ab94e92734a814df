import SpaceLink.Proofs.Codec.Canonical

/-! # Streams that tell where they end

A reader that is given less than the bytes of a value runs out of them, wherever the cut is, and
finds no other fault. `Starves` says so of a reader beside `Decodes`, and the two together carry over
to what is read in steps. A stream that is longer than its elements is told by the bytes left over.
-/
namespace SpaceLink

variable {α β : Type}

/-- Whatever is missing at the end of the bytes, the reader runs out of them and reports nothing
else. -/
def Starves (read : Bytes → Except CodecError α) (bytes : Bytes) : Prop :=
  ∀ cut : Bytes, cut <+: bytes → cut ≠ bytes →
    ∃ needed remaining : Nat, read cut = .error (.unexpectedEof needed remaining)

theorem Starves.nil (read : Bytes → Except CodecError α) : Starves read [] := by
  intro cut hcut hne
  exact absurd (List.prefix_nil.1 hcut) hne

theorem Starves.map {read : Bytes → Except CodecError α} {bytes : Bytes} (h : Starves read bytes)
    (f : α → β) : Starves (fun input => (read input).map f) bytes := by
  intro cut hcut hne
  obtain ⟨needed, remaining, herror⟩ := h cut hcut hne
  exact ⟨needed, remaining, by simp only [herror, Except.map]⟩

theorem Starves.bind {read : Bytes → Except CodecError α} {bytes : Bytes} (h : Starves read bytes)
    (f : α → Except CodecError β) : Starves (fun input => read input >>= f) bytes := by
  intro cut hcut hne
  obtain ⟨needed, remaining, herror⟩ := h cut hcut hne
  exact ⟨needed, remaining, by simp only [herror, Except.bind, Bind.bind]⟩

/-- A cut is before the end of the first part, or it leaves the first part whole. -/
theorem cut_append {cut first second : Bytes} (h : cut <+: first ++ second) :
    (cut <+: first ∧ cut ≠ first) ∨ ∃ rest, cut = first ++ rest ∧ rest <+: second := by
  by_cases hfull : first <+: cut
  · obtain ⟨rest, rfl⟩ := hfull
    exact .inr ⟨rest, rfl, (List.prefix_append_right_inj first).1 h⟩
  · have hpart : cut <+: first :=
      (List.prefix_or_prefix_of_prefix h (List.prefix_append first second)).resolve_right hfull
    exact .inl ⟨hpart, fun heq => hfull (heq ▸ List.prefix_refl cut)⟩

/-- The cut is in what the first step reads, or the first step has all its bytes and the cut is in
what comes then. -/
theorem Starves.append {read : Bytes → Except CodecError (α × Bytes)} {first second : Bytes} {a : α}
    {f : α × Bytes → Except CodecError β} (hstarves : Starves read first)
    (hdecodes : Decodes read first a) (hnext : Starves (fun rest => f (a, rest)) second) :
    Starves (fun input => read input >>= f) (first ++ second) := by
  intro cut hcut hne
  rcases cut_append hcut with ⟨hpart, hshort⟩ | ⟨rest, rfl, hbehind⟩
  · exact hstarves.bind f cut hpart hshort
  · obtain ⟨needed, remaining, herror⟩ := hnext rest hbehind fun heq => hne (by rw [heq])
    exact ⟨needed, remaining, by simp only [hdecodes rest, Bind.bind, Except.bind, herror]⟩

theorem starves_takeBytes (bytes : Bytes) : Starves (takeBytes bytes.length) bytes := by
  intro cut hcut hne
  have hlt : ¬bytes.length ≤ cut.length := fun hle => hne (hcut.eq_of_length_le hle)
  exact ⟨_, _, if_neg hlt⟩

theorem starves_takeWord {width : Nat} {bytes : Bytes} (h : bytes.length = width) :
    Starves (takeWord width) bytes := by
  subst h
  exact (starves_takeBytes bytes).map _

theorem starves_takeWithLength {bytes : Bytes} (h : bytes.length ≤ maxLength) :
    Starves takeWithLength (Bytes.ofWord 4 bytes.length ++ bytes) := by
  have hdecodes := decodes_takeWord (Bytes.ofWord 4 bytes.length)
  have hlt : bytes.length < 256 ^ 4 := Nat.lt_of_le_of_lt h (by decide)
  rw [Bytes.length_ofWord, Bytes.word_ofWord_of_lt hlt] at hdecodes
  exact (starves_takeWord (Bytes.length_ofWord _ _)).append hdecodes (starves_takeBytes bytes)

/-- Whatever kind of value it is, reading it finds no fault but the missing bytes. -/
theorem Value.starves_read {value : Value} (h : value.Fits) {bytes : Bytes}
    (hwrite : value.write = .ok bytes) (index : Nat) :
    Starves (Value.read value.kind index) bytes := by
  cases value with
  | boolean b =>
    cases hwrite
    exact (starves_takeWord rfl).bind _
  | octet n | uOctet n =>
    cases hwrite
    exact (starves_takeWord rfl).map _
  | short n | uShort n | integer n | uInteger n | long n | uLong n | float n | double n | time n
  | fineTime n | duration n =>
    cases hwrite
    exact (starves_takeWord (Bytes.length_ofWord _ _)).map _
  | string t | identifier t | uri t =>
    cases (if_pos h : withLength (utf8 t) = _).symm.trans hwrite
    exact (starves_takeWithLength h).bind _
  | blob b =>
    cases (if_pos h : withLength b = _).symm.trans hwrite
    exact (starves_takeWithLength h).map _

variable {kinds : List Kind} {elements : List Element} {parts : List Bytes}

namespace Plain

theorem starves_readTag (tag : UInt8) : Starves readTag [tag] := (starves_takeWord rfl).bind _

theorem starves_element {kind : Kind} {element : Element} (h : Fills kind element) {part : Bytes}
    (hpart : writeElement element = .ok part) (index : Nat) :
    Starves (readElement kind index) part := by
  cases h with
  | null =>
    cases hpart
    exact (starves_readTag nullTag).append readTag_null (.nil _)
  | @value v hkind hfits =>
    subst hkind
    obtain ⟨written, hwrite, rfl⟩ := exists_of_map_eq_ok hpart
    refine (starves_readTag v.kind.tag).append (readTag_tag v.kind) (?_ : Starves _ written)
    simp only [if_true]
    exact (Value.starves_read hfits hwrite index).map _

theorem starves_elements (h : List.Forall₂ Fills kinds elements)
    (hparts : elements.mapM writeElement = .ok parts) (index : Nat) :
    Starves (readElements kinds index) parts.flatten := by
  induction h generalizing parts index with
  | nil =>
    cases hparts
    exact .nil _
  | cons hfills _ ih =>
    rw [List.mapM_cons] at hparts
    obtain ⟨part, hpart, hothers⟩ := exists_of_bind_eq_ok hparts
    obtain ⟨later, hlater, heq⟩ := exists_of_bind_eq_ok hothers
    cases heq
    obtain ⟨written, hwritten, hdecodes⟩ := decodes_element hfills
    cases hwritten.symm.trans hpart
    exact (starves_element hfills hpart index).append (hdecodes index)
      ((ih hlater (index + 1)).bind _)

end Plain

namespace Split

section
variable {slots : List (Kind × Bool)} {index : Nat} {values : List Bool} {bytes : Bytes}

theorem starves_null (kind : Kind) (h : Starves (readElements slots (index + 1) values) bytes) :
    Starves (readElements ((kind, true) :: slots) index values) bytes := by
  intro cut hcut hne
  rw [readElements]
  exact h.bind _ cut hcut hne

theorem starves_flag (b : Bool) (h : Starves (readElements slots (index + 1) values) bytes) :
    Starves (readElements ((.boolean, false) :: slots) index (b :: values)) bytes := by
  intro cut hcut hne
  rw [readElements]
  exact h.bind _ cut hcut hne

theorem starves_value {v : Value} (hkind : v.kind ≠ .boolean) {front : Bytes}
    (hread : Starves (Value.read v.kind index) front)
    (hdecodes : Decodes (Value.read v.kind index) front v)
    (h : Starves (readElements slots (index + 1) values) bytes) :
    Starves (readElements ((v.kind, false) :: slots) index values) (front ++ bytes) := by
  intro cut hcut hne
  rw [readElements, if_neg Bool.false_ne_true, if_neg hkind]
  exact hread.append hdecodes (h.bind _) cut hcut hne

end

theorem starves_elements (h : List.Forall₂ Fills kinds elements)
    (hparts : elements.mapM writeElement = .ok parts) (index : Nat) :
    Starves (readElements (kinds.zip (elements.map Option.isNone)) index (booleans elements))
      parts.flatten := by
  induction h generalizing parts index with
  | nil =>
    cases hparts
    exact .nil _
  | @cons kind element kinds elements hfills _ ih =>
    rw [List.mapM_cons] at hparts
    obtain ⟨part, hpart, hothers⟩ := exists_of_bind_eq_ok hparts
    obtain ⟨later, hlater, heq⟩ := exists_of_bind_eq_ok hothers
    cases heq
    cases hfills with
    | null =>
      cases hpart
      exact starves_null kind (ih hlater (index + 1))
    | @value v hkind hfits =>
      subst hkind
      by_cases hbool : v.kind = .boolean
      · obtain ⟨b, rfl⟩ := Value.eq_boolean_of_kind hbool
        cases hpart
        exact starves_flag b (ih hlater (index + 1))
      · rw [writeElement_of_ne hbool] at hpart
        obtain ⟨written, hwritten, hdecodes⟩ := Value.decodes_write hfits
        cases hwritten.symm.trans hpart
        rw [booleans_of_ne hbool]
        exact starves_value hbool (Value.starves_read hfits hpart index) (hdecodes index)
          (ih hlater (index + 1))

/-- What `decode` reads behind the marker, before it looks whether anything is left. -/
def readBody (kinds : List Kind) (body : Bytes) : Except CodecError (List Element × Bytes) := do
  let (nulls, reader) ← takeFlags kinds.length (.ofBytes body)
  let (values, reader) ← takeFlags (booleanCount kinds nulls) reader
  readElements (kinds.zip nulls) 0 values (body.drop reader.consumed)

theorem takeFlags_eq_error {n : Nat} {r : Flags.Reader} (h : r.rest.length < n) :
    takeFlags n r = .error (.unexpectedEof 1 0) := by
  rw [takeFlags, Flags.Reader.take?_eq_none h]

/-- Where a byte of packed flags is missing, one of the two rows is not complete. -/
theorem takeFlags_of_cut {first second : List Bool} {cut : Bytes}
    (hcut : cut <+: Flags.pack (first ++ second)) (hne : cut ≠ Flags.pack (first ++ second)) :
    takeFlags first.length (.ofBytes cut) = .error (.unexpectedEof 1 0) ∨
      ∃ r : Flags.Reader, takeFlags first.length (.ofBytes cut) = .ok (first, r) ∧
        takeFlags second.length r = .error (.unexpectedEof 1 0) := by
  obtain ⟨missing, hmissing, hflags⟩ := Flags.bits_of_cut hcut hne
  by_cases hfirst : (Flags.Reader.ofBytes cut).rest.length < first.length
  · exact .inl (takeFlags_eq_error hfirst)
  · right
    have hrest : (Flags.Reader.ofBytes cut).rest = cut.flatMap Flags.bitsOf := rfl
    rw [hrest] at hfirst
    obtain ⟨more, hmore⟩ := List.prefix_of_prefix_length_le (List.prefix_append first second)
      ⟨missing, hflags.symm⟩ (Nat.le_of_not_lt hfirst)
    obtain ⟨r, htake, hleft, -⟩ := takeFlags_of_rest (hrest.trans hmore.symm)
    refine ⟨r, htake, takeFlags_eq_error ?_⟩
    rw [← hmore, List.append_assoc] at hflags
    rw [hleft, List.append_cancel_left hflags, List.length_append]
    exact Nat.lt_add_of_pos_right (List.length_pos_iff.2 hmissing)

/-- Behind packed flags that fit the kinds, the values are read with these flags. -/
theorem readBody_pack (h : List.Forall₂ Fills kinds elements) (bytes : Bytes) :
    readBody kinds (Flags.pack (flags elements) ++ bytes) =
      readElements (kinds.zip (elements.map Option.isNone)) 0 (booleans elements) bytes := by
  obtain ⟨r₁, r₂, hnulls, hbooleans, hbehind⟩ :=
    takeFlags_pack (elements.map Option.isNone) (booleans elements) bytes
  rw [List.length_map, ← h.length_eq] at hnulls
  rw [← booleanCount_eq h] at hbooleans
  rw [readBody, flags, hnulls]
  simp only [bind, Except.bind, hbooleans, hbehind]

theorem readBody_of_cut (h : List.Forall₂ Fills kinds elements) {cut : Bytes}
    (hcut : cut <+: Flags.pack (flags elements)) (hne : cut ≠ Flags.pack (flags elements)) :
    readBody kinds cut = .error (.unexpectedEof 1 0) := by
  rw [readBody]
  rcases takeFlags_of_cut hcut hne with hnulls | ⟨r, hnulls, hbooleans⟩
  · rw [List.length_map, ← h.length_eq] at hnulls
    rw [hnulls]
    rfl
  · rw [List.length_map, ← h.length_eq] at hnulls
    rw [← booleanCount_eq h] at hbooleans
    rw [hnulls]
    simp only [bind, Except.bind, hbooleans]

theorem decodes_readBody (h : List.Forall₂ Fills kinds elements)
    (hparts : elements.mapM writeElement = .ok parts) :
    Decodes (readBody kinds) (Flags.pack (flags elements) ++ parts.flatten) elements := by
  intro rest
  obtain ⟨written, hwritten, hdecodes⟩ := decodes_elements h
  cases hwritten.symm.trans hparts
  rw [List.append_assoc, readBody_pack h]
  exact hdecodes 0 rest

theorem starves_readBody (h : List.Forall₂ Fills kinds elements)
    (hparts : elements.mapM writeElement = .ok parts) :
    Starves (readBody kinds) (Flags.pack (flags elements) ++ parts.flatten) := by
  intro cut hcut hne
  rcases cut_append hcut with ⟨hpart, hshort⟩ | ⟨rest, rfl, hbehind⟩
  · exact ⟨1, 0, readBody_of_cut h hpart hshort⟩
  · rw [readBody_pack h]
    exact starves_elements h hparts 0 rest hbehind fun heq => hne (by rw [heq])

end Split

/-- The bytes are a whole stream: what is missing at their end and what follows them is told. -/
structure Delimited (decode : Bytes → Except CodecError (List Element)) (bytes : Bytes) : Prop where
  empty : decode [] = .error .emptyStream
  cut : ∀ cut : Bytes, cut <+: bytes → cut ≠ [] → cut ≠ bytes →
    ∃ needed remaining : Nat, decode cut = .error (.unexpectedEof needed remaining)
  extended : ∀ extra : Bytes, extra ≠ [] →
    decode (bytes ++ extra) = .error (.trailingBytes extra.length)

/-- A decoder that looks at the marker, reads the elements and then looks whether anything is left. -/
def Codec.decodeWith (codec : Codec) (read : Bytes → Except CodecError (List Element × Bytes))
    (bytes : Bytes) : Except CodecError (List Element) := do
  let body ← codec.bodyOf bytes
  let (elements, rest) ← read body
  if rest.isEmpty then .ok elements else .error (.trailingBytes rest.length)

theorem Codec.delimited_decodeWith (codec : Codec)
    {read : Bytes → Except CodecError (List Element × Bytes)} {body : Bytes}
    (hdecodes : Decodes read body elements) (hstarves : Starves read body) :
    Delimited (codec.decodeWith read) (codec.marker :: body) where
  empty := rfl
  cut := by
    intro cut hcut hnil hne
    cases cut with
    | nil => exact absurd rfl hnil
    | cons found cut =>
      obtain ⟨rfl, hbehind⟩ := List.cons_prefix_cons.1 hcut
      have hbody : codec.bodyOf (codec.marker :: cut) = .ok cut := if_pos rfl
      obtain ⟨needed, remaining, herror⟩ := hstarves cut hbehind fun heq => hne (by rw [heq])
      exact ⟨needed, remaining, by simp only [decodeWith, hbody, bind, Except.bind, herror]⟩
  extended := by
    intro extra hextra
    have hbody : codec.bodyOf (codec.marker :: (body ++ extra)) = .ok (body ++ extra) := if_pos rfl
    have hleft : ¬extra.isEmpty = true := fun hempty => hextra (List.isEmpty_iff.1 hempty)
    simp only [List.cons_append, decodeWith, hbody, bind, Except.bind, hdecodes extra, if_neg hleft]

theorem Plain.decode_eq_decodeWith (kinds : List Kind) :
    decode kinds = Codec.plain.decodeWith (readElements kinds 0) := rfl

theorem Split.decode_eq_decodeWith (kinds : List Kind) :
    decode kinds = Codec.split.decodeWith (readBody kinds) := by
  funext bytes
  simp only [decode, Codec.decodeWith, readBody, bind_assoc]

/-- No cut and no addition goes unnoticed: an encoding is decoded only whole and alone, and what is
reported tells which of the two it is. -/
theorem Codec.decode_delimited (codec : Codec) (h : List.Forall₂ Fills kinds elements) :
    ∃ bytes, codec.encode elements = .ok bytes ∧ Delimited (codec.decode kinds) bytes := by
  cases codec with
  | plain =>
    obtain ⟨parts, hparts, hdecodes⟩ := Plain.decodes_elements h
    refine ⟨_, Plain.encode_of_mapM hparts, ?_⟩
    rw [decode, Plain.decode_eq_decodeWith]
    exact Codec.delimited_decodeWith .plain (hdecodes 0) (Plain.starves_elements h hparts 0)
  | split =>
    obtain ⟨parts, hparts, -⟩ := Split.decodes_elements h
    refine ⟨_, by rw [encode, Split.encode, hparts]; rfl, ?_⟩
    rw [decode, Split.decode_eq_decodeWith]
    exact Codec.delimited_decodeWith .split (Split.decodes_readBody h hparts)
      (Split.starves_readBody h hparts)

/-- A boolean, a null and a word, in a byte of flags and two of a value. -/
theorem Codec.decode_delimited_flagged :
    Codec.split.encode [some (.boolean true), none, some (.uShort 513)] =
        .ok [0xB2, 0x0A, 2, 1] ∧
      Delimited (Codec.split.decode [.boolean, .octet, .uShort]) [0xB2, 0x0A, 2, 1] := by
  obtain ⟨bytes, hencode, hdelimited⟩ := Codec.decode_delimited .split
    (.cons (.value rfl trivial) (.cons .null (.cons (.value rfl trivial) .nil)) :
      List.Forall₂ Fills [.boolean, .octet, .uShort]
        [some (.boolean true), none, some (.uShort 513)])
  cases hencode
  exact ⟨rfl, hdelimited⟩

end SpaceLink
