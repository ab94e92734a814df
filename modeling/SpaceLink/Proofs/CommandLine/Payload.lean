import SpaceLink.CommandLine.Payload
import SpaceLink.Proofs.Codec.Canonical

/-! # What is shown of a body

A body is read as one blob, and the bodies that can be read so have one of two shapes: a null, or a
blob with its length in front. A body of neither shape is shown as it arrived. A null is shown as
nothing, which is what an empty blob and an empty body are shown as too.
-/
namespace SpaceLink.Payload

/-- The byte that tells if the one element is null: its tag, or the flags, of which all but the
first carry nothing. -/
def Announces : Codec → Bool → UInt8 → Prop
  | .plain, null, front => front = if null then Plain.nullTag else Kind.blob.tag
  | .split, null, front => front.toNat.testBit 0 = null

/-- The body carries the one element, and nothing behind it. -/
inductive Carries (codec : Codec) : Element → Bytes → Prop where
  | null {front : UInt8} (hfront : Announces codec true front) :
      Carries codec none [codec.marker, front]
  | blob {front : UInt8} {payload : Bytes} (hfront : Announces codec false front)
      (hfits : payload.length ≤ maxLength) :
      Carries codec (some (.blob payload))
        (codec.marker :: front :: (Bytes.ofWord 4 payload.length ++ payload))

variable {codec : Codec} {element : Element} {body body' payload rest : Bytes}
  {elements : List Element}

/-! ## The bodies that can be read -/

theorem Carries.fills (h : Carries codec element body) : Fills .blob element := by
  cases h with
  | null hfront => exact .null
  | blob hfront hfits => exact .value rfl hfits

/-- Any other byte that tells the same may stand in front. -/
theorem Carries.announced {front front' : UInt8}
    (h : Carries codec element (codec.marker :: front :: rest))
    (hfront : Announces codec element.isNone front') :
    Carries codec element (codec.marker :: front' :: rest) := by
  cases h with
  | null _ => exact .null hfront
  | blob _ hfits => exact .blob hfront hfits

/-- In the plain form there is no other such byte. -/
theorem Carries.unique (h : Carries .plain element body) (h' : Carries .plain element body') :
    body = body' := by
  cases h with
  | null hfront =>
    cases h' with
    | null hfront' => rw [hfront, hfront']
  | blob hfront _ =>
    cases h' with
    | blob hfront' _ => rw [hfront, hfront']

theorem announces_byteOf (null : Bool) : Announces .split null (Flags.byteOf [null]) := by
  have hlength : [null].length ≤ 8 := Nat.le_of_ble_eq_true rfl
  exact Flags.testBit_byteOf hlength 0

theorem carries_of_fills (codec : Codec) (h : Fills .blob element) :
    ∃ bytes, codec.encode [element] = .ok bytes ∧ Carries codec element bytes := by
  cases h with
  | null =>
    cases codec with
    | plain => exact ⟨_, rfl, .null rfl⟩
    | split => exact ⟨_, rfl, .null (announces_byteOf true)⟩
  | @value v hkind hfits =>
    cases v with
    | blob payload =>
      have hwrite : (Value.blob payload).write =
          .ok (Bytes.ofWord 4 payload.length ++ payload) := if_pos hfits
      cases codec with
      | plain =>
        have hparts : [some (Value.blob payload)].mapM Plain.writeElement =
            .ok [Kind.blob.tag :: (Bytes.ofWord 4 payload.length ++ payload)] := by
          rw [List.mapM_cons, Plain.writeElement, hwrite]
          rfl
        refine ⟨_, ?_, .blob rfl hfits⟩
        rw [Codec.encode, Plain.encode_of_mapM hparts, List.flatten_singleton]
        rfl
      | split =>
        have hparts : [some (Value.blob payload)].mapM Split.writeElement =
            .ok [Bytes.ofWord 4 payload.length ++ payload] := by
          rw [List.mapM_cons, Split.writeElement, hwrite]
          · rfl
          · simp
        refine ⟨_, ?_, .blob (announces_byteOf false) hfits⟩
        rw [Codec.encode, Split.encode_of_mapM hparts, List.flatten_singleton]
        rfl
    | _ => cases hkind

/-- A split body of one blob: a flag, and what is read as the flag says. -/
theorem split_decode_of_read {front : UInt8} {null : Bool} (hfront : Announces .split null front)
    (hread : Decodes (Split.readElements [(.blob, null)] 0 []) rest [element]) :
    Split.decode [.blob] (Codec.split.marker :: front :: rest) = .ok [element] := by
  have hflag : Split.takeFlags 1 (.ofBytes (front :: rest)) =
      .ok ([null], ⟨front :: rest, 1⟩) := by
    rw [← show front.toNat.testBit 0 = null from hfront]
    rfl
  have hbooleans : Split.takeFlags (Split.booleanCount [.blob] [null]) ⟨front :: rest, 1⟩ =
      .ok ([], ⟨front :: rest, 1⟩) := rfl
  have hconsumed : (Flags.Reader.mk (front :: rest) 1).consumed = 1 := by
    simp only [Flags.Reader.consumed]
  have hread := hread []
  rw [List.append_nil] at hread
  simp only [Split.decode, Codec.bodyOf, if_true, bind, Except.bind, List.length_singleton, hflag,
    hbooleans, hconsumed, List.drop_one, List.tail_cons, List.zip_cons_cons, List.zip_nil_left,
    hread, List.isEmpty_nil]

theorem decode_of_carries (h : Carries codec element body) :
    codec.decode [.blob] body = .ok [element] := by
  cases codec with
  | plain =>
    obtain ⟨bytes, hencode, hcarries⟩ := carries_of_fills .plain h.fills
    obtain ⟨bytes', hencode', hdecode⟩ := Plain.decodes_body (.cons h.fills .nil)
    cases hencode.symm.trans hencode'
    rw [h.unique hcarries]
    exact hdecode
  | split =>
    have hnil : Decodes (Split.readElements [] 1 []) [] [] := fun _ => rfl
    cases h with
    | @null front hfront => exact split_decode_of_read hfront (Split.decodes_null .blob hnil)
    | @blob front payload hfront hfits =>
      have hpayload : Decodes (Value.read .blob 0) (Bytes.ofWord 4 payload.length ++ payload)
          (.blob payload) := (decodes_takeWithLength hfits).map Value.blob
      have hkind : (Value.blob payload).kind ≠ .boolean := fun h => nomatch h
      have hread := Split.decodes_value hkind hpayload hnil
      rw [List.append_nil] at hread
      exact split_decode_of_read hfront hread

theorem exists_singleton (h : List.Forall₂ Fills [.blob] elements) :
    ∃ element, elements = [element] ∧ Fills .blob element := by
  obtain ⟨element, others, hfill, hothers, rfl⟩ := List.forall₂_cons_left_iff.1 h
  cases hothers
  exact ⟨element, rfl, hfill⟩

theorem plain_carries_of_decode (h : Plain.decode [.blob] body = .ok elements) :
    ∃ element, elements = [element] ∧ Carries .plain element body := by
  obtain ⟨hencode, hfills⟩ := Plain.encode_of_decode h
  obtain ⟨element, rfl, hfill⟩ := exists_singleton hfills
  obtain ⟨bytes, hencode', hcarries⟩ := carries_of_fills .plain hfill
  cases hencode'.symm.trans hencode
  exact ⟨element, rfl, hcarries⟩

/-- Neither a null nor a blob has a flag behind the one that tells which of them it is. -/
theorem length_flags (h : Fills .blob element) : (Split.flags [element]).length = 1 := by
  cases h with
  | null => rfl
  | @value v hkind _ =>
    cases v with
    | blob payload => rfl
    | _ => cases hkind

theorem split_carries_of_decode (h : Split.decode [.blob] body = .ok elements) :
    ∃ element, elements = [element] ∧ Carries .split element body := by
  obtain ⟨behind, rfl, hfills, hnulls, hencode⟩ := Split.denotes_of_decode h
  obtain ⟨element, rfl, hfill⟩ := exists_singleton hfills
  cases behind with
  | nil => cases hnulls
  | cons front rest =>
    obtain ⟨bytes, hencode', hcarries⟩ := carries_of_fills .split hfill
    -- encoding clears the bits that carry nothing, so it may put another byte in front
    rw [length_flags hfill] at hencode
    obtain rfl := Except.ok.inj (hencode'.symm.trans hencode)
    have hfront : Announces .split element.isNone front := (List.cons.inj hnulls).1.symm
    exact ⟨element, rfl, hcarries.announced hfront⟩

/-- The bodies that can be read as a blob are those that carry a blob or a null. -/
theorem decode_eq_ok_iff :
    codec.decode [.blob] body = .ok elements ↔
      ∃ element, elements = [element] ∧ Carries codec element body := by
  constructor
  · cases codec with
    | plain => exact plain_carries_of_decode
    | split => exact split_carries_of_decode
  · rintro ⟨element, rfl, hcarries⟩
    exact decode_of_carries hcarries

/-! ## What is shown -/

/-- What a body is shown as, whether it is read as a blob, as a null or not at all. -/
structure Shows (codec : Codec) (body : Bytes) : Prop where
  blob : ∀ payload, codec.decode [.blob] body = .ok [some (.blob payload)] ↔
    Carries codec (some (.blob payload)) body
  null : codec.decode [.blob] body = .ok [none] ↔ Carries codec none body
  of_blob : ∀ payload, codec.decode [.blob] body = .ok [some (.blob payload)] →
    decode codec body = payload
  of_null : codec.decode [.blob] body = .ok [none] → decode codec body = []
  of_other : (∀ payload, codec.decode [.blob] body ≠ .ok [some (.blob payload)]) →
    codec.decode [.blob] body ≠ .ok [none] →
    (∃ error, codec.decode [.blob] body = .error error) ∧ decode codec body = body
  nil_iff : decode codec body = [] ↔
    body = [] ∨ Carries codec (some (.blob [])) body ∨ Carries codec none body

theorem decode_eq_singleton_iff :
    codec.decode [.blob] body = .ok [element] ↔ Carries codec element body := by
  rw [decode_eq_ok_iff]
  constructor
  · rintro ⟨_, heq, hcarries⟩
    cases heq
    exact hcarries
  · intro hcarries
    exact ⟨element, rfl, hcarries⟩

theorem decode_of_blob (h : Carries codec (some (.blob payload)) body) :
    decode codec body = payload := by
  rw [decode, decode_of_carries h]

theorem decode_of_null (h : Carries codec none body) : decode codec body = [] := by
  rw [decode, decode_of_carries h]

theorem decode_of_error {error : CodecError} (h : codec.decode [.blob] body = .error error) :
    decode codec body = body := by
  rw [decode, h]

/-- There is no third thing that a body is read as. -/
theorem carries_or_error (codec : Codec) (body : Bytes) :
    (∃ payload, Carries codec (some (.blob payload)) body) ∨ Carries codec none body ∨
      ∃ error, codec.decode [.blob] body = .error error := by
  cases h : codec.decode [.blob] body with
  | error error => exact .inr (.inr ⟨error, rfl⟩)
  | ok elements =>
    obtain ⟨element, -, hcarries⟩ := decode_eq_ok_iff.1 h
    cases hcarries with
    | null hfront => exact .inr (.inl (.null hfront))
    | blob hfront hfits => exact .inl ⟨_, .blob hfront hfits⟩

theorem decode_eq_nil_iff :
    decode codec body = [] ↔
      body = [] ∨ Carries codec (some (.blob [])) body ∨ Carries codec none body := by
  constructor
  · intro h
    obtain ⟨payload, hcarries⟩ | hcarries | ⟨error, herror⟩ := carries_or_error codec body
    · cases (decode_of_blob hcarries).symm.trans h
      exact .inr (.inl hcarries)
    · exact .inr (.inr hcarries)
    · exact .inl ((decode_of_error herror).symm.trans h)
  · rintro (rfl | hcarries | hcarries)
    · cases codec <;> rfl
    · exact decode_of_blob hcarries
    · exact decode_of_null hcarries

theorem shows (codec : Codec) (body : Bytes) : Shows codec body where
  blob _ := decode_eq_singleton_iff
  null := decode_eq_singleton_iff
  of_blob _ h := decode_of_blob (decode_eq_singleton_iff.1 h)
  of_null h := decode_of_null (decode_eq_singleton_iff.1 h)
  of_other := by
    intro hblob hnull
    obtain ⟨payload, hcarries⟩ | hcarries | ⟨error, herror⟩ := carries_or_error codec body
    · exact absurd (decode_of_carries hcarries) (hblob payload)
    · exact absurd (decode_of_carries hcarries) hnull
    · exact ⟨⟨error, herror⟩, decode_of_error herror⟩
  nil_iff := decode_eq_nil_iff

/-- Of the bodies that do not carry a blob all but the nulls are shown unchanged, and a payload
comes out of the body that it has gone into. -/
theorem shows_bodies (codec : Codec) :
    (∀ body, Shows codec body) ∧
      ∀ payload : Bytes, payload.length < 2 ^ 32 →
        ∃ body, encode codec payload = .ok body ∧ decode codec body = payload := by
  refine ⟨shows codec, ?_⟩
  intro payload hlt
  have hfits : payload.length ≤ maxLength := Nat.le_of_lt_succ hlt
  obtain ⟨body, hencode, hcarries⟩ :=
    carries_of_fills codec (.value rfl hfits : Fills .blob (some (.blob payload)))
  refine ⟨body, ?_, decode_of_blob hcarries⟩
  rw [encode, elements, hencode]
  rfl

/-- Seven of the eight flag bits carry nothing, a plain body is cut behind its tag, and a payload of
three bytes goes in and out. -/
theorem shows_padded_body :
    decode .split [0xB2, 0xFE, 0, 0, 0, 1, 7] = [7] ∧
      decode .plain [0xB1, 0x0F] = [0xB1, 0x0F] ∧
      ∃ body, encode .split [1, 2, 3] = .ok body ∧ decode .split body = [1, 2, 3] := by
  have hpadded : Codec.split.decode [.blob] [0xB2, 0xFE, 0, 0, 0, 1, 7] = .ok [some (.blob [7])] :=
    rfl
  have hcut : Codec.plain.decode [.blob] [0xB1, 0x0F] = .error (.unexpectedEof 4 0) := rfl
  refine ⟨((shows_bodies .split).1 _).of_blob [7] hpadded, ?_, ?_⟩
  · refine (((shows_bodies .plain).1 _).of_other ?_ ?_).2
    · intro payload hpayload
      cases hcut.symm.trans hpayload
    · intro hnull
      cases hcut.symm.trans hnull
  · exact (shows_bodies .split).2 [1, 2, 3] (by decide)

/-- A null is read without an error, no blob is read from it, and it is not shown as it is. -/
theorem shows_nothing_of_null :
    Codec.plain.decode [.blob] [0xB1, 0] = .ok [none] ∧ decode .plain [0xB1, 0] = [] ∧
      Codec.split.decode [.blob] [0xB2, 0xFF] = .ok [none] ∧ decode .split [0xB2, 0xFF] = [] :=
  ⟨rfl, rfl, rfl, rfl⟩

end SpaceLink.Payload
