import Mathlib.Data.List.Forall2
import SpaceLink.Codec.Stream
import SpaceLink.Proofs.Codec.Flags
import SpaceLink.Proofs.Codec.Value

/-! # Message bodies read back

Both forms are read element by element, each element from the front of what the one before it left.
In the split form the null flags, the boolean flags and the values come from three places, and one
induction over the slots keeps the three in step.
-/
namespace SpaceLink

/-- A slot may be left null, or hold a value of its kind that fits. -/
inductive Fills (kind : Kind) : Element → Prop where
  | null : Fills kind none
  | value {v : Value} (hkind : v.kind = kind) (hfits : v.Fits) : Fills kind (some v)

variable {kinds : List Kind} {elements : List Element}

namespace Plain

theorem readTag_null (rest : Bytes) : readTag (nullTag :: rest) = .ok (none, rest) := by
  have htake := decodes_takeByte nullTag rest
  rw [List.singleton_append] at htake
  simp only [readTag, htake, bind, Except.bind, UInt8.ofNat_toNat, if_true]

theorem readTag_tag (kind : Kind) (rest : Bytes) :
    readTag (kind.tag :: rest) = .ok (some kind, rest) := by
  have htake := decodes_takeByte kind.tag rest
  have hnull : kind.tag ≠ nullTag := kind.tag_ne_zero
  rw [List.singleton_append] at htake
  simp only [readTag, htake, bind, Except.bind, UInt8.ofNat_toNat, if_neg hnull, Kind.ofTag?_tag]

theorem decodes_element {kind : Kind} {element : Element} (h : Fills kind element) :
    ∃ bytes : Bytes, writeElement element = .ok bytes ∧
      ∀ index, Decodes (readElement kind index) bytes element := by
  cases h with
  | null =>
    refine ⟨[nullTag], rfl, ?_⟩
    intro index rest
    simp only [readElement, List.singleton_append, readTag_null, bind, Except.bind]
  | @value v hkind hfits =>
    obtain ⟨bytes, hwrite, hread⟩ := Value.decodes_write hfits
    refine ⟨v.kind.tag :: bytes, by rw [writeElement, hwrite]; rfl, ?_⟩
    intro index rest
    subst hkind
    simp only [readElement, List.cons_append, readTag_tag, bind, Except.bind, if_true,
      hread index rest]
    rfl

theorem decodes_elements (h : List.Forall₂ Fills kinds elements) :
    ∃ parts : List Bytes, elements.mapM writeElement = .ok parts ∧
      ∀ index, Decodes (readElements kinds index) parts.flatten elements := by
  induction h with
  | nil => exact ⟨[], rfl, fun _ _ => rfl⟩
  | cons hfills _ ih =>
    obtain ⟨bytes, hwrite, hread⟩ := decodes_element hfills
    obtain ⟨parts, hparts, hreads⟩ := ih
    refine ⟨bytes :: parts, ?_, ?_⟩
    · rw [List.mapM_cons, hwrite, hparts]
      rfl
    · intro index rest
      rw [List.flatten_cons, List.append_assoc, readElements, hread index]
      simp only [bind, Except.bind, hreads (index + 1) rest]
      rfl

theorem encode_of_mapM {parts : List Bytes} (h : elements.mapM writeElement = .ok parts) :
    encode elements = .ok (Codec.plain.marker :: parts.flatten) := by
  rw [encode, h]
  rfl

theorem decodes_body (h : List.Forall₂ Fills kinds elements) :
    ∃ bytes, encode elements = .ok bytes ∧ decode kinds bytes = .ok elements := by
  obtain ⟨parts, hparts, hreads⟩ := decodes_elements h
  refine ⟨Codec.plain.marker :: parts.flatten, encode_of_mapM hparts, ?_⟩
  have hread := hreads 0 []
  rw [List.append_nil] at hread
  simp only [decode, Codec.bodyOf, if_true, bind, Except.bind, hread, List.isEmpty_nil]

end Plain

namespace Split

theorem takeFlags_of_rest {flags more : List Bool} {r : Flags.Reader} (h : r.rest = flags ++ more) :
    ∃ r' : Flags.Reader, takeFlags flags.length r = .ok (flags, r') ∧ r'.rest = more ∧
      r'.taken = r.taken + flags.length := by
  obtain ⟨r', htake, hrest, htaken⟩ := Flags.Reader.take?_of_rest h
  refine ⟨r', ?_, hrest, htaken⟩
  rw [takeFlags, htake]

/-- Two rows of flags packed as one are taken one after the other, and the reader then stands right
behind the packed bytes. -/
theorem takeFlags_pack (first second : List Bool) (bytes : Bytes) :
    ∃ r₁ r₂ : Flags.Reader,
      takeFlags first.length (.ofBytes (Flags.pack (first ++ second) ++ bytes)) = .ok (first, r₁) ∧
      takeFlags second.length r₁ = .ok (second, r₂) ∧
      (Flags.pack (first ++ second) ++ bytes).drop r₂.consumed = bytes := by
  obtain ⟨more, hrest⟩ := Flags.Reader.rest_ofBytes_pack (first ++ second) bytes
  rw [List.append_assoc] at hrest
  obtain ⟨r₁, hfirst, hrest₁, htaken₁⟩ := takeFlags_of_rest hrest
  obtain ⟨r₂, hsecond, _, htaken₂⟩ := takeFlags_of_rest hrest₁
  have hconsumed : r₂.consumed = (Flags.pack (first ++ second)).length := by
    rw [Flags.length_pack, Flags.Reader.consumed, htaken₂, htaken₁, List.length_append]
    simp [Flags.Reader.ofBytes]
  refine ⟨r₁, r₂, hfirst, hsecond, ?_⟩
  rw [hconsumed, List.drop_left]

/-- The reader counts as many booleans as the writer has put behind the null flags. -/
theorem booleanCount_eq (h : List.Forall₂ Fills kinds elements) :
    booleanCount kinds (elements.map Option.isNone) = (booleans elements).length := by
  induction h with
  | nil => rfl
  | @cons kind element kinds elements hfills _ ih =>
    rw [booleanCount] at ih ⊢
    rw [List.map_cons, List.zip_cons_cons, List.countP_cons, ih]
    cases hfills with
    | null => simp [booleans]
    | @value v hkind hfits =>
      subst hkind
      cases v <;> simp [booleans, Value.kind]

theorem writeElement_of_ne {v : Value} (h : v.kind ≠ .boolean) :
    writeElement (some v) = v.write := by
  cases v with
  | boolean b => exact absurd rfl h
  | _ => rfl

theorem booleans_of_ne {v : Value} (h : v.kind ≠ .boolean) (elements : List Element) :
    booleans (some v :: elements) = booleans elements := by
  cases v with
  | boolean b => exact absurd rfl h
  | _ => rfl

section
variable {slots : List (Kind × Bool)} {index : Nat} {values : List Bool} {bytes : Bytes}

/-- A null slot takes neither a boolean flag nor a byte. -/
theorem decodes_null (kind : Kind)
    (h : Decodes (readElements slots (index + 1) values) bytes elements) :
    Decodes (readElements ((kind, true) :: slots) index values) bytes (none :: elements) := by
  intro rest
  rw [readElements]
  simp only [if_true, bind, Except.bind, h rest]
  rfl

/-- A boolean takes one of the boolean flags and no byte. -/
theorem decodes_flag (b : Bool)
    (h : Decodes (readElements slots (index + 1) values) bytes elements) :
    Decodes (readElements ((.boolean, false) :: slots) index (b :: values)) bytes
      (some (.boolean b) :: elements) := by
  intro rest
  rw [readElements]
  simp only [Bool.false_eq_true, if_false, if_true, bind, Except.bind, List.tail_cons, h rest]
  rfl

/-- Any other value takes its bytes and no flag. -/
theorem decodes_value {v : Value} (hkind : v.kind ≠ .boolean) {front : Bytes}
    (hread : Decodes (Value.read v.kind index) front v)
    (h : Decodes (readElements slots (index + 1) values) bytes elements) :
    Decodes (readElements ((v.kind, false) :: slots) index values) (front ++ bytes)
      (some v :: elements) := by
  intro rest
  rw [readElements, List.append_assoc, hread]
  simp only [Bool.false_eq_true, if_false, if_neg hkind, bind, Except.bind, h rest]
  rfl

end

/-- The three passes meet: every slot finds its null flag, its boolean flag and its bytes. -/
theorem decodes_elements (h : List.Forall₂ Fills kinds elements) :
    ∃ parts : List Bytes, elements.mapM writeElement = .ok parts ∧
      ∀ index, Decodes (readElements (kinds.zip (elements.map Option.isNone)) index
        (booleans elements)) parts.flatten elements := by
  induction h with
  | nil => exact ⟨[], rfl, fun _ _ => rfl⟩
  | @cons kind element kinds elements hfills _ ih =>
    obtain ⟨parts, hparts, hreads⟩ := ih
    cases hfills with
    | null =>
      refine ⟨[] :: parts, by rw [List.mapM_cons, hparts]; rfl, ?_⟩
      intro index
      exact decodes_null kind (hreads (index + 1))
    | @value v hkind hfits =>
      subst hkind
      by_cases hbool : v.kind = .boolean
      · obtain ⟨b, rfl⟩ := Value.eq_boolean_of_kind hbool
        refine ⟨[] :: parts, by rw [List.mapM_cons, hparts]; rfl, ?_⟩
        intro index
        exact decodes_flag b (hreads (index + 1))
      · obtain ⟨bytes, hwrite, hread⟩ := Value.decodes_write hfits
        refine ⟨bytes :: parts, ?_, ?_⟩
        · rw [List.mapM_cons, writeElement_of_ne hbool, hwrite, hparts]
          rfl
        · intro index
          rw [booleans_of_ne hbool]
          exact decodes_value hbool (hread index) (hreads (index + 1))

theorem encode_of_mapM {parts : List Bytes} (h : elements.mapM writeElement = .ok parts) :
    encode elements =
      .ok (Codec.split.marker :: (Flags.pack (flags elements) ++ parts.flatten)) := by
  rw [encode, h]
  rfl

theorem decodes_body (h : List.Forall₂ Fills kinds elements) :
    ∃ bytes, encode elements = .ok bytes ∧ decode kinds bytes = .ok elements := by
  obtain ⟨parts, hparts, hreads⟩ := decodes_elements h
  refine ⟨Codec.split.marker :: (Flags.pack (flags elements) ++ parts.flatten),
    encode_of_mapM hparts, ?_⟩
  obtain ⟨r₁, r₂, hnulls, hbooleans, hbehind⟩ :=
    takeFlags_pack (elements.map Option.isNone) (booleans elements) parts.flatten
  rw [List.length_map, ← h.length_eq] at hnulls
  rw [← booleanCount_eq h] at hbooleans
  have hread := hreads 0 []
  rw [List.append_nil] at hread
  simp only [decode, Codec.bodyOf, if_true, bind, Except.bind, flags]
  rw [hnulls]
  simp only [hbooleans, hbehind, hread, List.isEmpty_nil, if_true]

end Split

/-- What either form encodes, it decodes to the very same elements. -/
theorem Codec.decode_encode (codec : Codec) (h : List.Forall₂ Fills kinds elements) :
    ∃ bytes, codec.encode elements = .ok bytes ∧ codec.decode kinds bytes = .ok elements := by
  cases codec with
  | plain => exact Plain.decodes_body h
  | split => exact Split.decodes_body h

/-- A null, two booleans, a NaN with a payload, a negative zero and a text outside of ASCII. -/
theorem Codec.decode_encode_mixed :
    ∃ bytes,
      Codec.split.encode [none, some (.boolean true), some (.float 0x7FC00123),
        some (.boolean false), some (.double 0x8000000000000000), some (.string "né")] = .ok bytes ∧
      Codec.split.decode [.boolean, .boolean, .float, .boolean, .double, .string] bytes =
        .ok [none, some (.boolean true), some (.float 0x7FC00123),
          some (.boolean false), some (.double 0x8000000000000000), some (.string "né")] := by
  have htext : (utf8 "né").length ≤ maxLength := by decide
  exact Codec.decode_encode .split (.cons .null (.cons (.value rfl trivial)
    (.cons (.value rfl trivial) (.cons (.value rfl trivial) (.cons (.value rfl trivial)
      (.cons (.value rfl htext) .nil))))))

end SpaceLink
