import Mathlib.Data.Nat.Find
import SpaceLink.Proofs.Codec.Canonical

/-! # Reading with and without the kinds

The plain form is read by its tags alone, or slot by slot with the kinds that are expected. Both
readers take the same bytes for an element, so they stay in step as long as no element differs from
its slot; and what the reader with kinds reports tells where the two part.
-/
namespace SpaceLink

/-- An element that a slot takes, not looking at its size. -/
def Suits (kind : Kind) (element : Element) : Prop := ∀ v, element = some v → v.kind = kind

/-- The element at an index is not null, and of another kind than its slot. -/
structure Differs (kinds : List Kind) (elements : List Element) (index : Nat)
    (expected found : Kind) : Prop where
  slot : kinds[index]? = some expected
  element : ∃ v, elements[index]? = some (some v) ∧ v.kind = found
  ne : found ≠ expected

variable {kinds : List Kind} {elements front back : List Element} {input rest bytes : Bytes}

theorem Fills.suits {kind : Kind} {element : Element} (h : Fills kind element) :
    Suits kind element := by
  cases h with
  | null => exact fun v hv => nomatch hv
  | value hkind _ =>
    rintro v ⟨⟩
    exact hkind

/-- Slots and elements suit as far as nothing differs. -/
theorem suits_take {n : Nat} (hkinds : n ≤ kinds.length) (helements : n ≤ elements.length)
    (h : ∀ i < n, ∀ expected found, ¬Differs kinds elements i expected found) :
    List.Forall₂ Suits (kinds.take n) (elements.take n) := by
  rw [List.forall₂_iff_get]
  refine ⟨by rw [List.length_take, List.length_take]; omega, ?_⟩
  intro i hi _ v hv
  rw [List.length_take] at hi
  simp only [List.get_eq_getElem, List.getElem_take] at hv ⊢
  by_contra hne
  refine h i (by omega) kinds[i] v.kind ⟨List.getElem?_eq_getElem (by omega), ⟨v, ?_, rfl⟩, hne⟩
  rw [List.getElem?_eq_getElem (by omega), hv]

/-- Where something differs, there is a first place. -/
theorem exists_first_differs (h : ∃ i expected found, Differs kinds elements i expected found) :
    ∃ i expected found, Differs kinds elements i expected found ∧
      ∀ j < i, ∀ expected found, ¬Differs kinds elements j expected found := by
  classical
  obtain ⟨expected, found, hdiffers⟩ := Nat.find_spec h
  refine ⟨Nat.find h, expected, found, hdiffers, ?_⟩
  intro j hj expected found hearlier
  exact Nat.find_min h hj ⟨expected, found, hearlier⟩

theorem not_differs_of_forall₂ (h : List.Forall₂ Suits kinds elements) (i : Nat)
    (expected found : Kind) : ¬Differs kinds elements i expected found := by
  rintro ⟨hslot, ⟨v, helement, hfound⟩, hne⟩
  obtain ⟨hi, hkind⟩ := List.getElem?_eq_some_iff.1 hslot
  obtain ⟨hi', hv⟩ := List.getElem?_eq_some_iff.1 helement
  have hsuits := (List.forall₂_iff_get.1 h).2 i hi hi' v hv
  exact hne (hfound ▸ hkind ▸ hsuits)

namespace Plain

/-- What is read by its tag is read into a slot that it suits, and refused by any other. -/
theorem readElement_of_readAny {index : Nat} {element : Element} (kind : Kind)
    (h : readAny index input = .ok (element, rest)) :
    (Suits kind element → readElement kind index input = .ok (element, rest)) ∧
      ∀ v, element = some v → v.kind ≠ kind →
        readElement kind index input = .error (.typeMismatch index kind v.kind) := by
  obtain ⟨⟨found?, left⟩, htag, hvalue⟩ := exists_of_bind_eq_ok h
  rw [readElement, htag]
  cases found? with
  | none =>
    cases hvalue
    refine ⟨fun _ => rfl, ?_⟩
    rintro v ⟨⟩
  | some found =>
    have hmap := hvalue
    obtain ⟨⟨v, left'⟩, hread, heq⟩ := exists_of_map_eq_ok hvalue
    cases heq
    obtain ⟨part, hwritten, -⟩ := Value.written_of_read hread
    constructor
    · intro hsuits
      have hkind : found = kind := hwritten.kind_eq.symm.trans (hsuits v rfl)
      exact (if_pos hkind).trans hmap
    · rintro _ ⟨⟩ hne
      have hkind : found ≠ kind := fun heq => hne (hwritten.kind_eq.trans heq)
      rw [hwritten.kind_eq]
      exact if_neg hkind

theorem readAll_eq_cons {steps index : Nat} {element : Element}
    (h : readAll steps index input = .ok (element :: elements)) :
    ∃ steps' rest, readAny index input = .ok (element, rest) ∧
      readAll steps' (index + 1) rest = .ok elements := by
  cases input with
  | nil =>
    rw [readAll] at h
    cases h
  | cons b input =>
    cases steps with
    | zero => cases h
    | succ steps =>
      rw [readAll] at h
      · obtain ⟨⟨first, rest⟩, hread, hlater⟩ := exists_of_bind_eq_ok h
        obtain ⟨later, hreads, heq⟩ := exists_of_bind_eq_ok hlater
        cases heq
        exact ⟨steps, rest, hread, hreads⟩
      · simp

theorem readAll_eq_nil {steps index : Nat} (h : readAll steps index input = .ok []) :
    input = [] := by
  obtain ⟨parts, hparts, rfl⟩ := readAll_eq_ok h
  cases hparts
  rfl

/-- The two readers stay in step over slots that suit. -/
theorem readElements_of_readAll {steps index : Nat} (hsuits : List.Forall₂ Suits kinds front)
    (h : readAll steps index input = .ok (front ++ back)) :
    ∃ steps' rest, readElements kinds index input = .ok (front, rest) ∧
      readAll steps' (index + kinds.length) rest = .ok back := by
  induction hsuits generalizing steps index input with
  | nil => exact ⟨steps, input, rfl, h⟩
  | @cons kind element kinds front hsuits _ ih =>
    obtain ⟨steps₁, rest₁, hread, hlater⟩ := readAll_eq_cons h
    obtain ⟨steps₂, rest₂, hreads, hback⟩ := ih hlater
    refine ⟨steps₂, rest₂, ?_, ?_⟩
    · rw [readElements, (readElement_of_readAny kind hread).1 hsuits]
      simp only [bind, Except.bind, hreads]
      rfl
    · rw [List.length_cons, Nat.add_comm kinds.length, ← Nat.add_assoc]
      exact hback

/-- Behind slots that are filled, the slots that follow are read. -/
theorem readElements_append {index : Nat}
    (h : readElements kinds index input = .ok (front, rest)) (later : List Kind) :
    readElements (kinds ++ later) index input =
      (readElements later (index + kinds.length) rest).map fun (back, rest) =>
        (front ++ back, rest) := by
  induction kinds generalizing index input front with
  | nil =>
    cases h
    rw [List.nil_append, List.length_nil, Nat.add_zero]
    cases hread : readElements later index rest <;> rfl
  | cons kind kinds ih =>
    obtain ⟨⟨element, left⟩, hread, hlater⟩ := exists_of_bind_eq_ok h
    obtain ⟨⟨others, left'⟩, hreads, heq⟩ := exists_of_bind_eq_ok hlater
    cases heq
    rw [List.cons_append, readElements, hread]
    simp only [bind, Except.bind, ih hreads, List.length_cons]
    rw [Nat.add_comm kinds.length, ← Nat.add_assoc]
    cases readElements later (index + 1 + kinds.length) rest <;> rfl

theorem length_lt_of_readAny {index : Nat} {element : Element}
    (h : readAny index input = .ok (element, rest)) : rest.length < input.length := by
  obtain ⟨part, hpart, rfl⟩ := readAny_eq_ok h
  rw [List.length_append]
  exact Nat.lt_add_of_pos_left (List.length_pos_iff.2 (ne_nil_of_writeElement hpart))

/-- The kinds are not needed for what they have let pass. -/
theorem readAll_of_readElements {steps index : Nat} (hsteps : input.length ≤ steps)
    (h : readElements kinds index input = .ok (elements, [])) :
    readAll steps index input = .ok elements := by
  induction kinds generalizing steps index input elements with
  | nil =>
    cases h
    rw [readAll]
  | cons kind kinds ih =>
    obtain ⟨⟨element, rest⟩, hread, hlater⟩ := exists_of_bind_eq_ok h
    obtain ⟨⟨later, rest'⟩, hreads, heq⟩ := exists_of_bind_eq_ok hlater
    cases heq
    obtain ⟨hany, -⟩ := readAny_of_readElement hread
    have hlt := length_lt_of_readAny hany
    cases steps with
    | zero => omega
    | succ steps =>
      cases input with
      | nil => cases hany
      | cons b input =>
        have hlater : readAll steps (index + 1) rest = .ok later :=
          ih (by rw [List.length_cons] at hlt hsteps; omega) hreads
        rw [readAll, hany]
        · simp only [bind, Except.bind, hlater]
          rfl
        · simp

/-- As far as nothing differs, the reader with kinds has read what the other one reads. -/
theorem readElements_take {steps index n : Nat} (h : readAll steps index input = .ok elements)
    (hkinds : n ≤ kinds.length) (helements : n ≤ elements.length)
    (hsame : ∀ i < n, ∀ expected found, ¬Differs kinds elements i expected found) :
    ∃ steps' rest, readElements (kinds.take n) index input = .ok (elements.take n, rest) ∧
      readAll steps' (index + n) rest = .ok (elements.drop n) := by
  rw [← List.take_append_drop n elements] at h
  obtain ⟨steps', rest, hread, hlater⟩ :=
    readElements_of_readAll (suits_take hkinds helements hsame) h
  rw [List.length_take, Nat.min_eq_left hkinds] at hlater
  exact ⟨steps', rest, hread, hlater⟩

/-- An error behind slots that are filled is the error of the whole. -/
theorem readElements_eq_error {index n : Nat} {error : CodecError}
    (h : readElements (kinds.take n) index input = .ok (front, rest)) (hn : n ≤ kinds.length)
    (herror : readElements (kinds.drop n) (index + n) rest = .error error) :
    readElements kinds index input = .error error := by
  have happend := readElements_append h (kinds.drop n)
  rw [List.take_append_drop, List.length_take, Nat.min_eq_left hn, herror] at happend
  exact happend

theorem readElements_mismatch {steps index i : Nat} {expected found : Kind}
    (h : readAll steps index input = .ok elements) (hdiffers : Differs kinds elements i expected found)
    (hsame : ∀ j < i, ∀ expected found, ¬Differs kinds elements j expected found) :
    readElements kinds index input = .error (.typeMismatch (index + i) expected found) := by
  obtain ⟨hslot, ⟨v, helement, rfl⟩, hne⟩ := hdiffers
  obtain ⟨hi, hkind⟩ := List.getElem?_eq_some_iff.1 hslot
  obtain ⟨hi', hv⟩ := List.getElem?_eq_some_iff.1 helement
  obtain ⟨steps', rest, hread, hlater⟩ :=
    readElements_take h (Nat.le_of_lt hi) (Nat.le_of_lt hi') hsame
  rw [List.drop_eq_getElem_cons hi', hv] at hlater
  obtain ⟨_, _, hany, _⟩ := readAll_eq_cons hlater
  refine readElements_eq_error hread (Nat.le_of_lt hi) ?_
  rw [List.drop_eq_getElem_cons hi, hkind, readElements,
    (readElement_of_readAny expected hany).2 v rfl hne]
  rfl

theorem readElements_missing {steps index : Nat} (h : readAll steps index input = .ok elements)
    (hlength : elements.length < kinds.length)
    (hsame : ∀ i expected found, ¬Differs kinds elements i expected found) :
    readElements kinds index input = .error (.unexpectedEof 1 0) := by
  obtain ⟨steps', rest, hread, hlater⟩ :=
    readElements_take h (Nat.le_of_lt hlength) (Nat.le_refl _) fun i _ => hsame i
  rw [List.drop_length] at hlater
  obtain rfl := readAll_eq_nil hlater
  refine readElements_eq_error hread (Nat.le_of_lt hlength) ?_
  rw [List.drop_eq_getElem_cons hlength]
  rfl

/-- What the reader with kinds says of bytes that the other reader takes for `elements`. -/
structure Answers (kinds : List Kind) (bytes : Bytes) (elements : List Element) : Prop where
  accepted : kinds.length = elements.length →
    (∀ i expected found, ¬Differs kinds elements i expected found) →
    decode kinds bytes = .ok elements
  /-- However many slots and elements there are, the first difference is told. -/
  mismatch : (∃ i expected found, Differs kinds elements i expected found) →
    ∃ i expected found, Differs kinds elements i expected found ∧
      (∀ j < i, ∀ expected found, ¬Differs kinds elements j expected found) ∧
      decode kinds bytes = .error (.typeMismatch i expected found)
  trailing : kinds.length < elements.length →
    (∀ i expected found, ¬Differs kinds elements i expected found) →
    ∃ others, encode (elements.drop kinds.length) = .ok (Codec.plain.marker :: others) ∧
      decode kinds bytes = .error (.trailingBytes others.length)
  missing : elements.length < kinds.length →
    (∀ i expected found, ¬Differs kinds elements i expected found) →
    decode kinds bytes = .error (.unexpectedEof 1 0)

theorem answers_of_decodeUntyped (kinds : List Kind) (h : decodeUntyped bytes = .ok elements) :
    Answers kinds bytes elements := by
  obtain ⟨input, hbody, hread⟩ := exists_of_bind_eq_ok h
  refine
    { accepted := fun hlength hsame => ?_
      mismatch := fun hdiffers => ?_
      trailing := fun hlength hsame => ?_
      missing := fun hlength hsame => ?_ }
  · obtain ⟨steps, rest, hreads, hlater⟩ :=
      readElements_take hread (Nat.le_refl _) (Nat.le_of_eq hlength) fun i _ => hsame i
    rw [hlength, List.drop_length] at hlater
    rw [List.take_length, hlength, List.take_length] at hreads
    obtain rfl := readAll_eq_nil hlater
    simp only [decode, hbody, bind, Except.bind, hreads, List.isEmpty_nil, if_true]
  · obtain ⟨i, expected, found, hfirst, hsame⟩ := exists_first_differs hdiffers
    refine ⟨i, expected, found, hfirst, hsame, ?_⟩
    have hreads := readElements_mismatch hread hfirst hsame
    rw [Nat.zero_add] at hreads
    simp only [decode, hbody, bind, Except.bind, hreads]
  · obtain ⟨steps, rest, hreads, hlater⟩ :=
      readElements_take hread (Nat.le_refl _) (Nat.le_of_lt hlength) fun i _ => hsame i
    rw [List.take_length] at hreads
    obtain ⟨parts, hparts, rfl⟩ := readAll_eq_ok hlater
    refine ⟨parts.flatten, encode_of_mapM hparts, ?_⟩
    have hleft : ¬parts.flatten.isEmpty = true := by
      intro hempty
      rw [List.isEmpty_iff.1 hempty, readAll] at hlater
      have hnil := congrArg List.length (Except.ok.inj hlater)
      rw [List.length_nil, List.length_drop] at hnil
      omega
    simp only [decode, hbody, bind, Except.bind, hreads, if_neg hleft]
  · have hreads := readElements_missing hread hlength hsame
    simp only [decode, hbody, bind, Except.bind, hreads]

/-- What is decoded with kinds is decoded without them to the same elements, one for each kind. And
where bytes are decoded without kinds, it depends on the elements alone what comes of decoding them
with kinds: the elements, the first difference, the size of the elements that have no slot, or that
bytes are missing. -/
theorem decode_agrees (kinds : List Kind) (bytes : Bytes) (elements : List Element) :
    (decode kinds bytes = .ok elements →
      decodeUntyped bytes = .ok elements ∧ elements.length = kinds.length ∧
        ∀ i expected found, ¬Differs kinds elements i expected found) ∧
    (decodeUntyped bytes = .ok elements → Answers kinds bytes elements) := by
  refine ⟨?_, answers_of_decodeUntyped kinds⟩
  intro h
  obtain ⟨input, hbody, hreads⟩ := decode_eq_ok h
  obtain ⟨hfills, -⟩ := readElements_eq_ok hreads
  refine ⟨?_, hfills.length_eq.symm,
    not_differs_of_forall₂ (hfills.imp fun _ _ hfill => hfill.suits)⟩
  rw [decodeUntyped, hbody]
  exact readAll_of_readElements (Nat.le_refl _) hreads

/-- Three elements are read with a kind too few, and with one that differs before one too many. -/
theorem decode_agrees_short :
    let bytes : Bytes := [0xB1, 1, 1, 0, 4, 2, 1]
    decodeUntyped bytes = .ok [some (.boolean true), none, some (.short 513)] ∧
      decode [.boolean, .blob] bytes = .error (.trailingBytes 3) ∧
      decode [.boolean, .blob, .uShort, .octet] bytes =
        .error (.typeMismatch 2 .uShort .short) := by
  intro bytes
  have hdecode : decodeUntyped bytes =
      .ok [some (.boolean true), none, some (.short 513)] := rfl
  have hsame : ∀ i expected found, ¬Differs [.boolean, .blob]
      [some (.boolean true), none, some (.short 513)] i expected found := by
    rintro (_ | _ | i) expected found ⟨hslot, ⟨v, helement, hfound⟩, hne⟩
    · cases hslot
      cases helement
      exact hne hfound.symm
    · cases helement
    · cases hslot
  refine ⟨hdecode, ?_, ?_⟩
  · obtain ⟨others, hencode, htrailing⟩ :=
      ((decode_agrees [.boolean, .blob] bytes _).2 hdecode).trailing (by decide) hsame
    cases hencode
    exact htrailing
  · obtain ⟨i, expected, found, ⟨hslot, ⟨v, helement, hfound⟩, hne⟩, -, hmismatch⟩ :=
      ((decode_agrees [.boolean, .blob, .uShort, .octet] bytes _).2 hdecode).mismatch
        ⟨2, .uShort, .short, rfl, ⟨.short 513, rfl, rfl⟩, by decide⟩
    rcases i with _ | _ | _ | i
    · cases hslot
      cases helement
      exact absurd hfound.symm hne
    · cases helement
    · cases hslot
      cases helement
      cases hfound
      exact hmismatch
    · cases helement

end Plain
end SpaceLink
