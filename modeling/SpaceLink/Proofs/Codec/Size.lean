import Mathlib.Algebra.Order.Floor.Div
import SpaceLink.Proofs.Codec.Canonical

/-! # How long the two forms are

The plain form spends a byte on each tag and on each boolean, and the split form a bit. All other
values take the same bytes in both, and whether a value can be written has nothing to do with the
form.
-/
namespace SpaceLink

theorem length_flatten_of_mapM {ε α : Type} {write : α → Except ε Bytes} {size : α → Nat}
    (hsize : ∀ x part, write x = .ok part → part.length = size x) {xs : List α}
    {parts : List Bytes} (h : xs.mapM write = .ok parts) :
    parts.flatten.length = (xs.map size).sum := by
  induction xs generalizing parts with
  | nil =>
    cases h
    rfl
  | cons x xs ih =>
    rw [List.mapM_cons] at h
    obtain ⟨part, hpart, hothers⟩ := exists_of_bind_eq_ok h
    obtain ⟨later, hlater, heq⟩ := exists_of_bind_eq_ok hothers
    cases heq
    rw [List.flatten_cons, List.length_append, hsize x part hpart, ih hlater, List.map_cons,
      List.sum_cons]

namespace Value

/-- The bytes of a text or blob; they stand behind their length. -/
def payload? : Value → Option Bytes
  | .string t | .identifier t | .uri t => some (utf8 t)
  | .blob b => some b
  | _ => none

/-- The number of bytes that a value is written in. -/
def size (v : Value) : Nat :=
  match v.payload? with
  | some payload => 4 + payload.length
  | none => v.kind.width?.getD 0

theorem write_of_payload? {v : Value} {payload : Bytes} (h : v.payload? = some payload) :
    v.write = withLength payload := by
  cases v <;> cases h <;> rfl

theorem fits_iff {v : Value} : v.Fits ↔ ∀ payload, v.payload? = some payload →
    payload.length < 2 ^ 32 := by
  have hlimit : ∀ n : Nat, n ≤ maxLength ↔ n < 2 ^ 32 := fun n => Nat.lt_succ_iff.symm
  cases v <;> simp [Fits, payload?, hlimit]

theorem withLength_eq_error_iff {payload : Bytes} {error : CodecError} :
    withLength payload = .error error ↔
      2 ^ 32 ≤ payload.length ∧ error = .tooLong payload.length := by
  rw [withLength]
  split
  · rename_i hle
    have hlt : payload.length < 2 ^ 32 := Nat.lt_succ_of_le hle
    exact ⟨(nomatch ·), fun ⟨hge, _⟩ => absurd hlt (Nat.not_lt.2 hge)⟩
  · rename_i hgt
    have hge : 2 ^ 32 ≤ payload.length := Nat.succ_le_of_lt (Nat.lt_of_not_le hgt)
    exact ⟨fun h => ⟨hge, (Except.error.inj h).symm⟩, fun ⟨_, herror⟩ => herror ▸ rfl⟩

/-- Only a text or blob that is too long for its length cannot be written. -/
theorem write_eq_error_iff {v : Value} {error : CodecError} :
    v.write = .error error ↔ ∃ payload, v.payload? = some payload ∧ 2 ^ 32 ≤ payload.length ∧
      error = .tooLong payload.length := by
  cases hpayload : v.payload? with
  | some payload =>
    rw [write_of_payload? hpayload, withLength_eq_error_iff]
    simp
  | none =>
    have hfits : v.Fits := fits_iff.2 fun payload h => nomatch hpayload.symm.trans h
    obtain ⟨bytes, hwrite, -⟩ := decodes_write hfits
    simp [hwrite]

theorem length_write {v : Value} {bytes : Bytes} (h : v.write = .ok bytes) :
    bytes.length = v.size := by
  cases hpayload : v.payload? with
  | some payload =>
    rw [write_of_payload? hpayload, withLength] at h
    split at h
    · cases h
      rw [size, hpayload, List.length_append, Bytes.length_ofWord]
    · cases h
  | none =>
    rw [size, hpayload]
    cases v with
    | boolean _ | octet _ | uOctet _ =>
      cases h
      rfl
    | short _ | uShort _ | integer _ | uInteger _ | long _ | uLong _ | float _ | double _ | time _
    | fineTime _ | duration _ =>
      cases h
      exact Bytes.length_ofWord _ _
    | string _ | identifier _ | uri _ | blob _ => cases hpayload

end Value

/-- A boolean that is not null. -/
def isFlag : Element → Bool
  | some (.boolean _) => true
  | _ => false

/-- The size of what an element has besides tags and flags. -/
def valueSize : Element → Nat
  | none | some (.boolean _) => 0
  | some v => v.size

def valuesSize (elements : List Element) : Nat := (elements.map valueSize).sum

theorem valueSize_of_ne {v : Value} (h : v.kind ≠ .boolean) : valueSize (some v) = v.size := by
  cases v with
  | boolean b => exact absurd rfl h
  | _ => rfl

/-- The first text or blob with more bytes than a length can tell. -/
def TooLong (elements : List Element) (error : CodecError) : Prop :=
  ∃ front v payload back, elements = front ++ some v :: back ∧
    (∀ w, some w ∈ front → w.Fits) ∧ v.payload? = some payload ∧ 2 ^ 32 ≤ payload.length ∧
    error = .tooLong payload.length

/-- A way to write elements that fails only where the value itself cannot be written. -/
structure WritesValues (write : Element → Except CodecError Bytes) : Prop where
  ok : ∀ element, (∀ v, element = some v → v.Fits) → ∃ part, write element = .ok part
  error_iff : ∀ element error, write element = .error error ↔
    ∃ v, element = some v ∧ v.write = .error error

theorem WritesValues.error_iff_tooLong {write : Element → Except CodecError Bytes}
    (h : WritesValues write) {elements : List Element} {error : CodecError} :
    elements.mapM write = .error error ↔ TooLong elements error := by
  rw [mapM_eq_error_iff]
  constructor
  · rintro ⟨front, element, back, rfl, hfront, herror⟩
    obtain ⟨v, rfl, hwrite⟩ := (h.error_iff element error).1 herror
    obtain ⟨payload, hpayload, hlong, rfl⟩ := Value.write_eq_error_iff.1 hwrite
    refine ⟨front, v, payload, back, rfl, ?_, hpayload, hlong, rfl⟩
    intro w hw
    obtain ⟨part, hpart⟩ := hfront _ hw
    rw [Value.fits_iff]
    intro written hwritten
    by_contra hge
    have hfails := (h.error_iff (some w) (.tooLong written.length)).2
      ⟨w, rfl, Value.write_eq_error_iff.2 ⟨written, hwritten, Nat.le_of_not_lt hge, rfl⟩⟩
    cases hfails.symm.trans hpart
  · rintro ⟨front, v, payload, back, rfl, hfront, hpayload, hlong, rfl⟩
    refine ⟨front, some v, back, rfl, ?_, ?_⟩
    · rintro element helement
      refine h.ok element ?_
      rintro w rfl
      exact hfront w helement
    · exact (h.error_iff _ _).2 ⟨v, rfl, Value.write_eq_error_iff.2 ⟨payload, hpayload, hlong, rfl⟩⟩

namespace Plain

theorem writesValues : WritesValues writeElement where
  ok := by
    rintro (_ | v) h
    · exact ⟨_, rfl⟩
    · obtain ⟨bytes, hwrite, -⟩ := Value.decodes_write (h v rfl)
      exact ⟨_, by rw [writeElement, hwrite]; rfl⟩
  error_iff := by
    rintro (_ | v) error
    · constructor
      · intro h
        cases h
      · rintro ⟨_, ⟨⟩, -⟩
    · rw [writeElement]
      cases hwrite : v.write with
      | error e => simp [Except.map, hwrite]
      | ok bytes => simp [Except.map, hwrite]

theorem encode_eq_error_iff {elements : List Element} {error : CodecError} :
    encode elements = .error error ↔ elements.mapM writeElement = .error error :=
  bind_pure_eq_error_iff

/-- A tag for each element, and a byte for a boolean. -/
theorem length_writeElement (element : Element) (part : Bytes)
    (h : writeElement element = .ok part) :
    part.length = 1 + (if isFlag element then 1 else 0) + valueSize element := by
  cases element with
  | none =>
    cases h
    rfl
  | some v =>
    obtain ⟨written, hwrite, rfl⟩ := exists_of_map_eq_ok h
    rw [List.length_cons, Value.length_write hwrite]
    cases v with
    | boolean b => rfl
    | _ => exact Nat.add_comm _ _

end Plain

namespace Split

theorem writesValues : WritesValues writeElement where
  ok := by
    rintro (_ | v) h
    · exact ⟨_, rfl⟩
    · by_cases hbool : v.kind = .boolean
      · cases v <;> cases hbool
        exact ⟨_, rfl⟩
      · obtain ⟨bytes, hwrite, -⟩ := Value.decodes_write (h v rfl)
        exact ⟨bytes, (writeElement_of_ne hbool).trans hwrite⟩
  error_iff := by
    rintro (_ | v) error
    · constructor
      · intro h
        cases h
      · rintro ⟨_, ⟨⟩, -⟩
    · by_cases hbool : v.kind = .boolean
      · cases v <;> cases hbool
        simp [writeElement, Value.write]
      · simp [writeElement_of_ne hbool]

theorem encode_eq_error_iff {elements : List Element} {error : CodecError} :
    encode elements = .error error ↔ elements.mapM writeElement = .error error :=
  bind_pure_eq_error_iff

/-- Nulls and booleans have no bytes of their own. -/
theorem length_writeElement (element : Element) (part : Bytes)
    (h : writeElement element = .ok part) : part.length = valueSize element := by
  cases element with
  | none =>
    cases h
    rfl
  | some v =>
    by_cases hbool : v.kind = .boolean
    · cases v <;> cases hbool
      cases h
      rfl
    · rw [writeElement_of_ne hbool] at h
      rw [Value.length_write h, valueSize_of_ne hbool]

theorem length_booleans (elements : List Element) :
    (booleans elements).length = elements.countP isFlag := by
  induction elements with
  | nil => rfl
  | cons element elements ih =>
    rw [List.countP_cons, ← ih]
    cases element with
    | none => rfl
    | some v =>
      cases v with
      | boolean b => rfl
      | _ => rfl

end Split

/-- What all elements of the plain form take besides their values. -/
theorem sum_plain_size (elements : List Element) :
    (elements.map fun element =>
        1 + (if isFlag element then 1 else 0) + valueSize element).sum =
      elements.length + elements.countP isFlag + valuesSize elements := by
  induction elements with
  | nil => rfl
  | cons element elements ih =>
    rw [List.map_cons, List.sum_cons, ih, List.length_cons, List.countP_cons, valuesSize, valuesSize,
      List.map_cons, List.sum_cons]
    omega

/-- Of `n` elements, `b` of them booleans and none too long, the split form needs `n + b` bits and
the plain form as many bytes, besides the bytes of the values that both forms write. So the split
form is never the longer one. And either form fails on the same elements and for the same reason, the
first text or blob that is too long. -/
theorem Codec.encodes_sized (elements : List Element) :
    ((∀ v, some v ∈ elements → v.Fits) →
      ∃ plain split : Bytes, Codec.plain.encode elements = .ok plain ∧
        Codec.split.encode elements = .ok split ∧
        plain.length =
          1 + elements.length + elements.countP isFlag + valuesSize elements ∧
        split.length =
          1 + (elements.length + elements.countP isFlag) ⌈/⌉ (8 : Nat) + valuesSize elements ∧
        split.length ≤ plain.length) ∧
    ∀ (codec : Codec) error, codec.encode elements = .error error ↔ TooLong elements error := by
  constructor
  · intro hfits
    have hvalues : ∀ element ∈ elements, ∀ v, element = some v → v.Fits := by
      rintro _ helement v rfl
      exact hfits v helement
    obtain ⟨parts, hparts⟩ :=
      exists_mapM_eq_ok fun element h => Plain.writesValues.ok element (hvalues element h)
    obtain ⟨parts', hparts'⟩ :=
      exists_mapM_eq_ok fun element h => Split.writesValues.ok element (hvalues element h)
    have hplain := length_flatten_of_mapM Plain.length_writeElement hparts
    have hsplit := length_flatten_of_mapM Split.length_writeElement hparts'
    have hflags : (Flags.pack (Split.flags elements)).length =
        (elements.length + elements.countP isFlag) ⌈/⌉ 8 := by
      rw [Flags.length_pack, Split.flags, List.length_append, List.length_map,
        Split.length_booleans, Nat.ceilDiv_eq_add_pred_div]
      rfl
    have hceil : (elements.length + elements.countP isFlag) ⌈/⌉ 8 ≤
        elements.length + elements.countP isFlag := by
      rw [Nat.ceilDiv_eq_add_pred_div]
      omega
    refine ⟨Codec.plain.marker :: parts.flatten,
      Codec.split.marker :: (Flags.pack (Split.flags elements) ++ parts'.flatten),
      Plain.encode_of_mapM hparts, Split.encode_of_mapM hparts', ?_, ?_, ?_⟩
    · rw [List.length_cons, hplain, sum_plain_size]
      omega
    · rw [List.length_cons, List.length_append, hflags, hsplit, valuesSize]
      omega
    · rw [List.length_cons, List.length_cons, List.length_append, hflags, hplain, hsplit,
        sum_plain_size, valuesSize]
      omega
  · intro codec error
    cases codec with
    | plain => exact Plain.encode_eq_error_iff.trans Plain.writesValues.error_iff_tooLong
    | split => exact Split.encode_eq_error_iff.trans Split.writesValues.error_iff_tooLong

/-- Two nulls, two booleans and a word take 7 bits and 2 bytes, or 7 bytes and 2. -/
theorem Codec.encodes_sized_mixed :
    ∃ plain split : Bytes,
      Codec.plain.encode [none, some (.boolean true), some (.uShort 513), none,
        some (.boolean false)] = .ok plain ∧
      Codec.split.encode [none, some (.boolean true), some (.uShort 513), none,
        some (.boolean false)] = .ok split ∧ plain.length = 10 ∧ split.length = 4 := by
  have hfits : ∀ v : Value, (some v : Element) ∈ [none, some (.boolean true), some (.uShort 513), none,
      some (.boolean false)] → v.Fits := by
    intro v hv
    simp only [List.mem_cons, Option.some.injEq, List.not_mem_nil, reduceCtorEq, or_false,
      false_or] at hv
    rcases hv with rfl | rfl | rfl <;> trivial
  obtain ⟨plain, split, hplain, hsplit, hlength, hlength', -⟩ := (Codec.encodes_sized _).1 hfits
  exact ⟨plain, split, hplain, hsplit, hlength, hlength'⟩

end SpaceLink
