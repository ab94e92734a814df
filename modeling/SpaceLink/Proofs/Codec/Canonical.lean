import SpaceLink.Proofs.Codec.RoundTrip
import SpaceLink.Proofs.Outcome

/-! # One reading for every byte string

Whatever a reader accepts it has taken off the front of its input, and it is what the writer makes of
the value it gives. So an accepted byte string is the encoding of its elements. In the split form
alone some bits carry nothing, those that fill up the last byte of flags, and encoding clears them.
-/
namespace SpaceLink

theorem utf8_of_ofUtf8? {bytes : Bytes} {text : String} (h : ofUtf8? bytes = some text) :
    utf8 text = bytes := by
  rw [ofUtf8?, String.fromUTF8?] at h
  split at h
  · cases h
    rfl
  · cases h

theorem takeBytes_eq_ok {n : Nat} {input bytes rest : Bytes}
    (h : takeBytes n input = .ok (bytes, rest)) : bytes.length = n ∧ input = bytes ++ rest := by
  rw [takeBytes] at h
  split at h
  · rename_i hle
    cases h
    exact ⟨by rw [List.length_take, Nat.min_eq_left hle], (List.take_append_drop n input).symm⟩
  · cases h

theorem takeWord_eq_ok {width n : Nat} {input rest : Bytes}
    (h : takeWord width input = .ok (n, rest)) :
    n < 256 ^ width ∧ input = Bytes.ofWord width n ++ rest := by
  obtain ⟨⟨bytes, left⟩, htake, heq⟩ := exists_of_map_eq_ok h
  cases heq
  obtain ⟨rfl, rfl⟩ := takeBytes_eq_ok htake
  exact ⟨Bytes.word_lt bytes, by rw [Bytes.ofWord_word]⟩

theorem takeByte_eq_ok {n : Nat} {input rest : Bytes} (h : takeWord 1 input = .ok (n, rest)) :
    n < 256 ∧ input = UInt8.ofNat n :: rest :=
  takeWord_eq_ok h

theorem takeWithLength_eq_ok {input bytes rest : Bytes}
    (h : takeWithLength input = .ok (bytes, rest)) :
    bytes.length ≤ maxLength ∧ input = Bytes.ofWord 4 bytes.length ++ bytes ++ rest := by
  obtain ⟨⟨length, left⟩, hlength, htake⟩ := exists_of_bind_eq_ok h
  obtain ⟨hlt, rfl⟩ := takeWord_eq_ok hlength
  obtain ⟨rfl, rfl⟩ := takeBytes_eq_ok htake
  exact ⟨Nat.le_of_lt_succ hlt, (List.append_assoc _ _ _).symm⟩

namespace Value

/-- The bytes are the encoding of a value of the kind. -/
structure Written (kind : Kind) (value : Value) (bytes : Bytes) : Prop where
  kind_eq : value.kind = kind
  fits : value.Fits
  write_eq : value.write = .ok bytes

variable {kind : Kind} {value : Value} {input rest : Bytes}

theorem written_number {width : Nat} (make : Nat → Value)
    (hwritten : ∀ n, n < 256 ^ width → Written kind (make n) (Bytes.ofWord width n))
    (h : read.number input width make = .ok (value, rest)) :
    ∃ bytes, Written kind value bytes ∧ input = bytes ++ rest := by
  obtain ⟨⟨n, left⟩, htake, heq⟩ := exists_of_map_eq_ok h
  cases heq
  obtain ⟨hlt, rfl⟩ := takeWord_eq_ok htake
  exact ⟨_, hwritten n hlt, rfl⟩

theorem written_text {index : Nat} (make : String → Value)
    (hwritten : ∀ text, (utf8 text).length ≤ maxLength →
      Written kind (make text) (Bytes.ofWord 4 (utf8 text).length ++ utf8 text))
    (h : read.text index input make = .ok (value, rest)) :
    ∃ bytes, Written kind value bytes ∧ input = bytes ++ rest := by
  obtain ⟨⟨bytes, left⟩, htake, hmake⟩ := exists_of_bind_eq_ok h
  obtain ⟨hle, rfl⟩ := takeWithLength_eq_ok htake
  dsimp only at hmake
  split at hmake
  · rename_i text htext
    cases hmake
    obtain rfl := utf8_of_ofUtf8? htext
    exact ⟨_, hwritten text hle, rfl⟩
  · cases hmake

theorem written_boolean {index : Nat} (h : Value.read .boolean index input = .ok (value, rest)) :
    ∃ bytes, Written .boolean value bytes ∧ input = bytes ++ rest := by
  obtain ⟨⟨n, left⟩, htake, hmake⟩ := exists_of_bind_eq_ok h
  obtain ⟨-, rfl⟩ := takeByte_eq_ok htake
  dsimp only at hmake
  split at hmake
  · rename_i hzero
    cases hmake
    exact ⟨_, ⟨rfl, trivial, rfl⟩, by rw [hzero]; rfl⟩
  · split at hmake
    · rename_i hone
      cases hmake
      exact ⟨_, ⟨rfl, trivial, rfl⟩, by rw [hone]; rfl⟩
    · cases hmake

theorem written_uint16 (make : UInt16 → Value)
    (hwritten : ∀ w, Written kind (make w) (Bytes.ofWord 2 w.toNat)) (n : Nat) (h : n < 256 ^ 2) :
    Written kind (make (UInt16.ofNat n)) (Bytes.ofWord 2 n) := by
  have hword := hwritten (UInt16.ofNat n)
  rwa [UInt16.toNat_ofNat_of_lt' h] at hword

theorem written_uint32 (make : UInt32 → Value)
    (hwritten : ∀ w, Written kind (make w) (Bytes.ofWord 4 w.toNat)) (n : Nat) (h : n < 256 ^ 4) :
    Written kind (make (UInt32.ofNat n)) (Bytes.ofWord 4 n) := by
  have hword := hwritten (UInt32.ofNat n)
  rwa [UInt32.toNat_ofNat_of_lt' h] at hword

theorem written_uint64 (make : UInt64 → Value)
    (hwritten : ∀ w, Written kind (make w) (Bytes.ofWord 8 w.toNat)) (n : Nat) (h : n < 256 ^ 8) :
    Written kind (make (UInt64.ofNat n)) (Bytes.ofWord 8 n) := by
  have hword := hwritten (UInt64.ofNat n)
  rwa [UInt64.toNat_ofNat_of_lt' h] at hword

/-- What is read as a value of a kind is one, and it is written as the bytes that were read. -/
theorem written_of_read {index : Nat} (h : Value.read kind index input = .ok (value, rest)) :
    ∃ bytes, Written kind value bytes ∧ input = bytes ++ rest := by
  cases kind with
  | boolean => exact written_boolean h
  | octet =>
    exact written_number (fun n => .octet (UInt8.ofNat n).toInt8) (fun _ _ => ⟨rfl, trivial, rfl⟩) h
  | uOctet =>
    exact written_number (fun n => .uOctet (UInt8.ofNat n)) (fun _ _ => ⟨rfl, trivial, rfl⟩) h
  | short =>
    exact written_number _ (written_uint16 (fun w => .short w.toInt16)
      fun _ => ⟨rfl, trivial, rfl⟩) h
  | uShort => exact written_number _ (written_uint16 .uShort fun _ => ⟨rfl, trivial, rfl⟩) h
  | integer =>
    exact written_number _ (written_uint32 (fun w => .integer w.toInt32)
      fun _ => ⟨rfl, trivial, rfl⟩) h
  | uInteger => exact written_number _ (written_uint32 .uInteger fun _ => ⟨rfl, trivial, rfl⟩) h
  | long =>
    exact written_number _ (written_uint64 (fun w => .long w.toInt64)
      fun _ => ⟨rfl, trivial, rfl⟩) h
  | uLong => exact written_number _ (written_uint64 .uLong fun _ => ⟨rfl, trivial, rfl⟩) h
  | float => exact written_number _ (written_uint32 .float fun _ => ⟨rfl, trivial, rfl⟩) h
  | double => exact written_number _ (written_uint64 .double fun _ => ⟨rfl, trivial, rfl⟩) h
  | string => exact written_text .string (fun _ hle => ⟨rfl, hle, if_pos hle⟩) h
  | identifier => exact written_text .identifier (fun _ hle => ⟨rfl, hle, if_pos hle⟩) h
  | uri => exact written_text .uri (fun _ hle => ⟨rfl, hle, if_pos hle⟩) h
  | blob =>
    obtain ⟨⟨bytes, left⟩, htake, heq⟩ := exists_of_map_eq_ok h
    cases heq
    obtain ⟨hle, rfl⟩ := takeWithLength_eq_ok htake
    exact ⟨_, ⟨rfl, hle, if_pos hle⟩, rfl⟩
  | time => exact written_number _ (written_uint64 .time fun _ => ⟨rfl, trivial, rfl⟩) h
  | fineTime => exact written_number _ (written_uint64 .fineTime fun _ => ⟨rfl, trivial, rfl⟩) h
  | duration => exact written_number _ (written_uint64 .duration fun _ => ⟨rfl, trivial, rfl⟩) h

end Value

theorem Codec.bodyOf_eq_ok {codec : Codec} {bytes body : Bytes}
    (h : codec.bodyOf bytes = .ok body) : bytes = codec.marker :: body := by
  cases bytes with
  | nil => cases h
  | cons found rest =>
    rw [bodyOf] at h
    split at h
    · rename_i hfound
      cases h
      rw [hfound]
    · cases h

variable {kinds : List Kind} {elements : List Element} {input rest bytes : Bytes}

namespace Plain

theorem readTag_eq_ok {found? : Option Kind} (h : readTag input = .ok (found?, rest)) :
    input = found?.elim nullTag Kind.tag :: rest := by
  obtain ⟨⟨n, left⟩, htake, hfound⟩ := exists_of_bind_eq_ok h
  obtain ⟨-, rfl⟩ := takeByte_eq_ok htake
  dsimp only at hfound
  split at hfound
  · rename_i hnull
    cases hfound
    rw [hnull]
    rfl
  · split at hfound
    · rename_i kind hkind
      cases hfound
      rw [Option.elim_some, Kind.tag_of_ofTag? hkind]
    · cases hfound

theorem writeElement_of_written {kind : Kind} {v : Value} (h : Value.Written kind v bytes) :
    writeElement (some v) = .ok (kind.tag :: bytes) := by
  rw [writeElement, h.write_eq, h.kind_eq]
  rfl

theorem readAny_eq_ok {index : Nat} {element : Element}
    (h : readAny index input = .ok (element, rest)) :
    ∃ part, writeElement element = .ok part ∧ input = part ++ rest := by
  obtain ⟨⟨found?, left⟩, htag, hvalue⟩ := exists_of_bind_eq_ok h
  obtain rfl := readTag_eq_ok htag
  cases found? with
  | none =>
    cases hvalue
    exact ⟨_, rfl, rfl⟩
  | some kind =>
    obtain ⟨⟨v, left⟩, hread, heq⟩ := exists_of_map_eq_ok hvalue
    cases heq
    obtain ⟨part, hwritten, rfl⟩ := Value.written_of_read hread
    exact ⟨_, writeElement_of_written hwritten, rfl⟩

/-- Knowing the kind does no more than refuse other kinds. -/
theorem readAny_of_readElement {kind : Kind} {index : Nat} {element : Element}
    (h : readElement kind index input = .ok (element, rest)) :
    readAny index input = .ok (element, rest) ∧ Fills kind element := by
  obtain ⟨⟨found?, left⟩, htag, hvalue⟩ := exists_of_bind_eq_ok h
  rw [readAny, htag]
  cases found? with
  | none =>
    cases hvalue
    exact ⟨rfl, .null⟩
  | some found =>
    dsimp only at hvalue
    split at hvalue
    · rename_i hfound
      subst hfound
      obtain ⟨⟨v, left⟩, hread, heq⟩ := exists_of_map_eq_ok hvalue
      cases heq
      obtain ⟨part, hwritten, -⟩ := Value.written_of_read hread
      exact ⟨hvalue, .value hwritten.kind_eq hwritten.fits⟩
    · cases hvalue

theorem readElements_eq_ok {index : Nat} (h : readElements kinds index input = .ok (elements, rest)) :
    List.Forall₂ Fills kinds elements ∧
      ∃ parts : List Bytes, elements.mapM writeElement = .ok parts ∧
        input = parts.flatten ++ rest := by
  induction kinds generalizing index input elements with
  | nil =>
    cases h
    exact ⟨.nil, [], rfl, rfl⟩
  | cons kind kinds ih =>
    obtain ⟨⟨element, left⟩, hread, hlater⟩ := exists_of_bind_eq_ok h
    obtain ⟨⟨later, left⟩, hreads, heq⟩ := exists_of_bind_eq_ok hlater
    cases heq
    obtain ⟨hany, hfills⟩ := readAny_of_readElement hread
    obtain ⟨part, hpart, rfl⟩ := readAny_eq_ok hany
    obtain ⟨hkinds, parts, hparts, rfl⟩ := ih hreads
    refine ⟨.cons hfills hkinds, part :: parts, ?_, ?_⟩
    · rw [List.mapM_cons, hpart, hparts]
      rfl
    · rw [List.flatten_cons, List.append_assoc]

theorem readAll_eq_ok {steps index : Nat} (h : readAll steps index input = .ok elements) :
    ∃ parts : List Bytes, elements.mapM writeElement = .ok parts ∧ input = parts.flatten := by
  fun_induction readAll steps index input generalizing elements with
  | case1 =>
    cases h
    exact ⟨[], rfl, rfl⟩
  | case2 => cases h
  | case3 steps index input _ ih =>
    obtain ⟨⟨element, left⟩, hread, hlater⟩ := exists_of_bind_eq_ok h
    obtain ⟨later, hreads, heq⟩ := exists_of_bind_eq_ok hlater
    cases heq
    obtain ⟨part, hpart, rfl⟩ := readAny_eq_ok hread
    obtain ⟨parts, hparts, rfl⟩ := ih _ hreads
    refine ⟨part :: parts, ?_, rfl⟩
    rw [List.mapM_cons, hpart, hparts]
    rfl

/-- Behind the encoding of the elements before it stands the null tag for a null element, and the
tag of its kind for any other. -/
def TagsTell (bytes : Bytes) (elements : List Element) : Prop :=
  ∀ front element back, elements = front ++ element :: back →
    ∃ before : Bytes, encode front = .ok before ∧
      (element = none ↔ bytes[before.length]? = some nullTag) ∧
      ∀ v, element = some v → bytes[before.length]? = some v.kind.tag

theorem head?_of_writeElement {element : Element} {part : Bytes}
    (h : writeElement element = .ok part) :
    (element = none ↔ part.head? = some nullTag) ∧
      ∀ v, element = some v → part.head? = some v.kind.tag := by
  cases element with
  | none =>
    cases h
    exact ⟨⟨fun _ => rfl, fun _ => rfl⟩, fun _ hv => nomatch hv⟩
  | some v =>
    obtain ⟨written, -, rfl⟩ := exists_of_map_eq_ok h
    have htag : v.kind.tag ≠ nullTag := v.kind.tag_ne_zero
    refine ⟨⟨(fun hv => nomatch hv), fun hnull => absurd (Option.some.inj hnull) htag⟩, ?_⟩
    rintro _ ⟨⟩
    rfl

theorem ne_nil_of_writeElement {element : Element} {part : Bytes}
    (h : writeElement element = .ok part) : part ≠ [] := by
  rintro rfl
  cases element with
  | none => cases h
  | some v => simpa using (head?_of_writeElement h).2 v rfl

theorem tagsTell_of_encode (h : encode elements = .ok bytes) : TagsTell bytes elements := by
  rintro front element back rfl
  obtain ⟨parts, hparts, hbytes⟩ := exists_of_bind_eq_ok h
  cases hbytes
  rw [List.mapM_append, List.mapM_cons] at hparts
  obtain ⟨earlier, hearlier, hparts⟩ := exists_of_bind_eq_ok hparts
  obtain ⟨others, hothers, hparts⟩ := exists_of_bind_eq_ok hparts
  cases hparts
  obtain ⟨part, hpart, hothers⟩ := exists_of_bind_eq_ok hothers
  obtain ⟨later, -, hothers⟩ := exists_of_bind_eq_ok hothers
  cases hothers
  refine ⟨_, encode_of_mapM hearlier, ?_⟩
  have hne := ne_nil_of_writeElement hpart
  have hplace : (Codec.plain.marker :: (earlier ++ part :: later).flatten)[
      (Codec.plain.marker :: earlier.flatten).length]? = part.head? := by
    rw [List.length_cons, List.getElem?_cons_succ, List.flatten_append, List.flatten_cons,
      List.getElem?_append_right (Nat.le_refl _), Nat.sub_self,
      List.getElem?_append_left (List.length_pos_iff.2 hne), List.head?_eq_getElem?]
  rw [hplace]
  exact head?_of_writeElement hpart

theorem decode_eq_ok (h : decode kinds bytes = .ok elements) :
    ∃ body, Codec.plain.bodyOf bytes = .ok body ∧ readElements kinds 0 body = .ok (elements, []) := by
  obtain ⟨body, hbody, hread⟩ := exists_of_bind_eq_ok h
  obtain ⟨⟨found, left⟩, hreads, hend⟩ := exists_of_bind_eq_ok hread
  dsimp only at hend
  split at hend
  · rename_i hempty
    cases hend
    rw [List.isEmpty_iff.1 hempty] at hreads
    exact ⟨body, hbody, hreads⟩
  · cases hend

theorem encode_of_decode (h : decode kinds bytes = .ok elements) :
    encode elements = .ok bytes ∧ List.Forall₂ Fills kinds elements := by
  obtain ⟨body, hbody, hreads⟩ := decode_eq_ok h
  obtain ⟨hfills, parts, hparts, rfl⟩ := readElements_eq_ok hreads
  rw [encode_of_mapM hparts, Codec.bodyOf_eq_ok hbody, List.append_nil]
  exact ⟨rfl, hfills⟩

theorem encode_of_decodeUntyped (h : decodeUntyped bytes = .ok elements) :
    encode elements = .ok bytes := by
  obtain ⟨body, hbody, hread⟩ := exists_of_bind_eq_ok h
  obtain ⟨parts, hparts, rfl⟩ := readAll_eq_ok hread
  rw [encode_of_mapM hparts, Codec.bodyOf_eq_ok hbody]

end Plain

namespace Split

theorem takeFlags_eq_ok {n : Nat} {r r' : Flags.Reader} {flags : List Bool}
    (h : takeFlags n r = .ok (flags, r')) :
    flags.length = n ∧ r.rest = flags ++ r'.rest ∧ r'.taken = r.taken + n := by
  rw [takeFlags] at h
  split at h
  · rename_i taken htake
    cases h
    exact Flags.Reader.rest_of_take? htake
  · cases h

/-- Where the flags and the bytes went that the slots have been filled from. -/
structure Filled (slots : List (Kind × Bool)) (values : List Bool) (input rest : Bytes)
    (elements : List Element) : Prop where
  fills : List.Forall₂ Fills (slots.map Prod.fst) elements
  nulls : elements.map Option.isNone = slots.map Prod.snd
  booleans : booleans elements = values
  written : ∃ parts : List Bytes, elements.mapM writeElement = .ok parts ∧
    input = parts.flatten ++ rest

section
variable {slots : List (Kind × Bool)} {values : List Bool}

theorem Filled.null (kind : Kind) (h : Filled slots values input rest elements) :
    Filled ((kind, true) :: slots) values input rest (none :: elements) := by
  obtain ⟨parts, hparts, hinput⟩ := h.written
  refine ⟨.cons .null h.fills, ?_, h.booleans, [] :: parts, ?_, hinput⟩
  · rw [List.map_cons, List.map_cons, h.nulls]
    rfl
  · rw [List.mapM_cons, hparts]
    rfl

theorem Filled.flag (b : Bool) (h : Filled slots values input rest elements) :
    Filled ((.boolean, false) :: slots) (b :: values) input rest (some (.boolean b) :: elements) := by
  obtain ⟨parts, hparts, hinput⟩ := h.written
  refine ⟨.cons (.value rfl trivial) h.fills, ?_, ?_, [] :: parts, ?_, hinput⟩
  · rw [List.map_cons, List.map_cons, h.nulls]
    rfl
  · rw [← h.booleans]
    rfl
  · rw [List.mapM_cons, hparts]
    rfl

theorem Filled.value {kind : Kind} {v : Value} {part : Bytes} (hkind : kind ≠ .boolean)
    (hwritten : Value.Written kind v part) (h : Filled slots values input rest elements) :
    Filled ((kind, false) :: slots) values (part ++ input) rest (some v :: elements) := by
  obtain ⟨parts, hparts, hinput⟩ := h.written
  have hne : v.kind ≠ .boolean := by
    rw [hwritten.kind_eq]
    exact hkind
  refine ⟨.cons (.value hwritten.kind_eq hwritten.fits) h.fills, ?_, ?_, part :: parts, ?_, ?_⟩
  · rw [List.map_cons, List.map_cons, h.nulls]
    rfl
  · rw [booleans_of_ne hne, h.booleans]
  · rw [List.mapM_cons, writeElement_of_ne hne, hwritten.write_eq, hparts]
    rfl
  · rw [hinput, List.flatten_cons, List.append_assoc]

/-- As long as there is a flag for each boolean, reading fills the slots. -/
theorem filled_of_readElements {index : Nat}
    (hcount : slots.countP (fun (kind, null) => kind == .boolean && !null) = values.length)
    (h : readElements slots index values input = .ok (elements, rest)) :
    Filled slots values input rest elements := by
  induction slots generalizing index values input elements with
  | nil =>
    cases h
    exact ⟨.nil, rfl, (List.length_eq_zero_iff.1 hcount.symm).symm, [], rfl, rfl⟩
  | cons slot slots ih =>
    obtain ⟨kind, null⟩ := slot
    rw [List.countP_cons] at hcount
    rw [readElements] at h
    split at h
    · rename_i hnull
      subst hnull
      obtain ⟨⟨later, left⟩, hreads, heq⟩ := exists_of_bind_eq_ok h
      cases heq
      exact (ih (by simpa using hcount) hreads).null kind
    · rename_i hnull
      rw [Bool.not_eq_true] at hnull
      subst hnull
      split at h
      · rename_i hkind
        subst hkind
        obtain ⟨⟨later, left⟩, hreads, heq⟩ := exists_of_bind_eq_ok h
        cases heq
        cases values with
        | nil => simp at hcount
        | cons b values => exact (ih (by simpa using hcount) hreads).flag b
      · rename_i hkind
        obtain ⟨⟨v, middle⟩, hread, hlater⟩ := exists_of_bind_eq_ok h
        obtain ⟨⟨later, left⟩, hreads, heq⟩ := exists_of_bind_eq_ok hlater
        cases heq
        obtain ⟨part, hwritten, rfl⟩ := Value.written_of_read hread
        exact (ih (by simpa [hkind] using hcount) hreads).value hkind hwritten

end

/-- What the bytes behind the marker say of the elements. -/
structure Denotes (kinds : List Kind) (body : Bytes) (elements : List Element) : Prop where
  fills : List.Forall₂ Fills kinds elements
  nulls : elements.map Option.isNone = (body.flatMap Flags.bitsOf).take kinds.length
  encode_eq : encode elements =
    .ok (Codec.split.marker :: Flags.clearUnused (flags elements).length body)

/-- Two rows of flags that are taken one after the other stand at the front of the bits. -/
theorem bits_of_takeFlags {n m : Nat} {body : Bytes} {r₁ r₂ : Flags.Reader}
    {first second : List Bool} (hfirst : takeFlags n (.ofBytes body) = .ok (first, r₁))
    (hsecond : takeFlags m r₁ = .ok (second, r₂)) :
    body.flatMap Flags.bitsOf = first ++ second ++ r₂.rest ∧
      r₂.consumed = ((first ++ second).length + 7) / 8 := by
  obtain ⟨hlength₁, hrest₁, htaken₁⟩ := takeFlags_eq_ok hfirst
  obtain ⟨hlength₂, hrest₂, htaken₂⟩ := takeFlags_eq_ok hsecond
  constructor
  · rw [List.append_assoc, ← hrest₂, ← hrest₁]
    rfl
  · rw [Flags.Reader.consumed, htaken₂, htaken₁, List.length_append, hlength₁, hlength₂,
      Flags.Reader.ofBytes, Nat.zero_add]

theorem denotes_of_decode (h : decode kinds bytes = .ok elements) :
    ∃ body, bytes = Codec.split.marker :: body ∧ Denotes kinds body elements := by
  obtain ⟨body, hbody, h⟩ := exists_of_bind_eq_ok h
  obtain ⟨⟨nulls, r₁⟩, hnulls, h⟩ := exists_of_bind_eq_ok h
  obtain ⟨⟨values, r₂⟩, hvalues, h⟩ := exists_of_bind_eq_ok h
  obtain ⟨⟨found, left⟩, hreads, h⟩ := exists_of_bind_eq_ok h
  dsimp only at hreads h
  split at h
  · rename_i hempty
    cases h
    have hlength := (takeFlags_eq_ok hnulls).1
    obtain ⟨hbits, hconsumed⟩ := bits_of_takeFlags hnulls hvalues
    obtain ⟨hfills, hslots, hbooleans, parts, hparts, hbehind⟩ :=
      filled_of_readElements (takeFlags_eq_ok hvalues).1.symm hreads
    rw [List.map_fst_zip (Nat.le_of_eq hlength.symm)] at hfills
    rw [List.map_snd_zip (Nat.le_of_eq hlength)] at hslots
    have hflags : flags elements = nulls ++ values := by rw [flags, hslots, hbooleans]
    refine ⟨body, Codec.bodyOf_eq_ok hbody, hfills, ?_, ?_⟩
    · rw [hslots, hbits, List.append_assoc, ← hlength, List.take_left]
    · rw [List.isEmpty_iff.1 hempty, List.append_nil, hconsumed] at hbehind
      rw [encode, hparts, hflags, ← Flags.pack_append_drop hbits, hbehind]
      rfl
  · cases h

end Split

/-- Whatever is accepted is the encoding of what it is decoded to, but for bits that carry nothing;
it marks as null what is decoded as null, and every other element has the kind that it tells. -/
theorem Codec.encode_decoded (kinds : List Kind) (bytes : Bytes) (elements : List Element) :
    (Plain.decode kinds bytes = .ok elements →
      Plain.encode elements = .ok bytes ∧ List.Forall₂ Fills kinds elements ∧
        Plain.TagsTell bytes elements) ∧
    (Plain.decodeUntyped bytes = .ok elements →
      Plain.encode elements = .ok bytes ∧ Plain.TagsTell bytes elements) ∧
    (Split.decode kinds bytes = .ok elements →
      ∃ body, bytes = Codec.split.marker :: body ∧ Split.Denotes kinds body elements ∧
        (Flags.UnusedClear (Split.flags elements).length body →
          Split.encode elements = .ok bytes)) := by
  refine ⟨?_, ?_, ?_⟩
  · intro h
    obtain ⟨hencode, hfills⟩ := Plain.encode_of_decode h
    exact ⟨hencode, hfills, Plain.tagsTell_of_encode hencode⟩
  · intro h
    have hencode := Plain.encode_of_decodeUntyped h
    exact ⟨hencode, Plain.tagsTell_of_encode hencode⟩
  · intro h
    obtain ⟨body, hbytes, hdenotes⟩ := Split.denotes_of_decode h
    refine ⟨body, hbytes, hdenotes, ?_⟩
    intro hclear
    rw [hdenotes.encode_eq, Flags.clearUnused_of_clear hclear, hbytes]

/-- Four of eight flag bits are used, and the other four are set before encoding clears them. -/
theorem Codec.encode_decoded_padded :
    Plain.decode [.boolean, .octet, .uOctet] [0xB1, 1, 1, 0, 3, 9] =
        .ok [some (.boolean true), none, some (.uOctet 9)] ∧
      Plain.encode [some (.boolean true), none, some (.uOctet 9)] =
        .ok [0xB1, 1, 1, 0, 3, 9] ∧
      Split.decode [.boolean, .octet, .uOctet] [0xB2, 0xFA, 9] =
        .ok [some (.boolean true), none, some (.uOctet 9)] ∧
      Split.encode [some (.boolean true), none, some (.uOctet 9)] = .ok [0xB2, 0x0A, 9] := by
  refine ⟨rfl, ?_, rfl, ?_⟩
  · exact ((Codec.encode_decoded [.boolean, .octet, .uOctet] _ _).1 rfl).1
  · obtain ⟨body, hbytes, hdenotes, -⟩ :=
      (Codec.encode_decoded [.boolean, .octet, .uOctet] [0xB2, 0xFA, 9] _).2.2 rfl
    obtain rfl := (List.cons.inj hbytes).2
    exact hdenotes.encode_eq

end SpaceLink
