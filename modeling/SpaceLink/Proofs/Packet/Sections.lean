import SpaceLink.Packet.Wire
import SpaceLink.Proofs.Io
import SpaceLink.Proofs.Packet.Header

/-! # Sections of a packet

A reader cuts a packet into qualifier, header, body and checksum, each of the length that the
framing or the length field gives. `Sections` is such a cut. A reader takes exactly the bytes of a
cut off a stream, whatever stands in them, and the checksum alone decides what it says of them; and
all that a reader accepts is cut so. `Takes` states the first of any step of a reader, so that the
steps compose as their bytes do.
-/
namespace SpaceLink

/-- The packet is there, but its checksum is wrong. -/
def PacketError.IsMismatch (error : PacketError) : Prop :=
  ∃ computed found : UInt16, error = .crcMismatch computed found

namespace PacketReading

variable {α β : Type}

theorem bind_of_ok {step : PacketReading α} {next : α → PacketReading β} {source left : Source}
    {a : α} (h : step source = (.ok a, left)) : (step >>= next) source = next a left := by
  simp only [bind, ExceptT.bind, ExceptT.mk, StateT.bind, h, ExceptT.bindCont]

theorem bind_of_error {step : PacketReading α} {next : α → PacketReading β}
    {source left : Source} {error : PacketError} (h : step source = (.error error, left)) :
    (step >>= next) source = (.error error, left) := by
  simp only [bind, ExceptT.bind, ExceptT.mk, StateT.bind, h, ExceptT.bindCont]
  rfl

/-- What a step says that has taken a whole packet: the packet, or that its checksum is wrong. -/
def Whole (result : Except PacketError α) : Prop :=
  ∀ error : PacketError, result = .error error → error.IsMismatch

theorem whole_ok (a : α) : Whole (.ok a : Except PacketError α) := fun _ h => by cases h

/-- The step compares no checksum. -/
def Uncompared (step : PacketReading α) : Prop :=
  ∀ {source left : Source} {error : PacketError}, step source = (.error error, left) →
    ¬error.IsMismatch

/-- A whole packet is not the word of a step that compares nothing, so the step went on. -/
theorem bind_eq_whole {step : PacketReading α} {next : α → PacketReading β}
    (hstep : Uncompared step) {source left : Source} {result : Except PacketError β}
    (hwhole : Whole result) (h : (step >>= next) source = (result, left)) :
    ∃ (a : α) (middle : Source), step source = (.ok a, middle) ∧ next a middle = (result, left) := by
  rcases hread : step source with ⟨error | a, middle⟩
  · rw [bind_of_error hread] at h
    cases h
    exact absurd (hwhole error rfl) (hstep hread)
  · rw [bind_of_ok hread] at h
    exact ⟨a, middle, rfl, h⟩

theorem map_eq {step : PacketReading α} {f : α → β} {source left : Source}
    {result : Except PacketError β} (h : (f <$> step) source = (result, left)) :
    ∃ first : Except PacketError α, step source = (first, left) ∧ first.map f = result := by
  rw [map_eq_pure_bind] at h
  rcases hread : step source with ⟨error | a, middle⟩
  · rw [bind_of_error hread] at h
    cases h
    exact ⟨_, rfl, rfl⟩
  · rw [bind_of_ok hread] at h
    cases h
    exact ⟨_, rfl, rfl⟩

theorem map_eq_ok {step : PacketReading α} {f : α → β} {source left : Source} {b : β}
    (h : (f <$> step) source = (.ok b, left)) : ∃ a : α, step source = (.ok a, left) ∧ f a = b := by
  obtain ⟨error | a, hstep, hmap⟩ := map_eq h
  · cases hmap
  · cases hmap
    exact ⟨a, hstep, rfl⟩

/-- The step takes exactly `bytes` off any smooth source that begins with them, and ends in
`result`. -/
def Takes (step : PacketReading α) (bytes : Bytes) (result : Except PacketError α) : Prop :=
  ∀ (source : Source) (rest : Bytes), source.Smooth → source.contents = bytes ++ rest →
    ∃ left : Source, step source = (result, left) ∧ left.Smooth ∧ left.contents = rest

theorem Takes.pure (value : α) : Takes (pure value) [] (.ok value) :=
  fun source _ hsmooth hcontents => ⟨source, rfl, hsmooth, hcontents⟩

theorem Takes.throw (error : PacketError) : Takes (throw error : PacketReading α) [] (.error error) :=
  fun source _ hsmooth hcontents => ⟨source, rfl, hsmooth, hcontents⟩

theorem Takes.bind {step : PacketReading α} {next : α → PacketReading β} {first second : Bytes}
    {a : α} {result : Except PacketError β} (hstep : Takes step first (.ok a))
    (hnext : Takes (next a) second result) : Takes (step >>= next) (first ++ second) result := by
  intro source rest hsmooth hcontents
  obtain ⟨middle, hread, hsmooth, hcontents⟩ := hstep source (second ++ rest) hsmooth
    (by rw [hcontents, List.append_assoc])
  obtain ⟨left, hread', hleft⟩ := hnext middle rest hsmooth hcontents
  exact ⟨left, by rw [bind_of_ok hread, hread'], hleft⟩

theorem Takes.bind_nil {step : PacketReading α} {next : α → PacketReading β} {bytes : Bytes}
    {a : α} {result : Except PacketError β} (hstep : Takes step bytes (.ok a))
    (hnext : Takes (next a) [] result) : Takes (step >>= next) bytes result := by
  have h := hstep.bind hnext
  rwa [List.append_nil] at h

theorem Takes.map {step : PacketReading α} {bytes : Bytes} {result : Except PacketError α}
    (hstep : Takes step bytes result) (f : α → β) : Takes (f <$> step) bytes (result.map f) := by
  intro source rest hsmooth hcontents
  obtain ⟨left, hread, hleft⟩ := hstep source rest hsmooth hcontents
  refine ⟨left, ?_, hleft⟩
  rw [map_eq_pure_bind]
  cases result with
  | error error => exact bind_of_error hread
  | ok a => exact bind_of_ok hread

theorem exactly_of_contents_nil {source : Source} (hsmooth : source.Smooth)
    (hcontents : source.contents = []) (expected : Nat) {size : Nat} (hsize : size ≠ 0) :
    ∃ left : Source, exactly 0 expected size source = (.error .connectionClosed, left) := by
  obtain ⟨left, hfill, -⟩ := Source.fill_smooth hsmooth size
  rw [hcontents] at hfill
  exact ⟨left, by simp [exactly, hfill, hsize.symm]⟩

theorem takes_exactly (received expected : Nat) {size : Nat} {bytes : Bytes}
    (h : bytes.length = size) : Takes (exactly received expected size) bytes (.ok bytes) := by
  subst h
  intro source rest hsmooth hcontents
  obtain ⟨left, hfill, hleft, hrest⟩ := Source.fill_smooth hsmooth bytes.length
  rw [hcontents, List.take_left] at hfill
  rw [hcontents, List.drop_left] at hrest
  exact ⟨left, by simp [exactly, hfill], hleft, hrest⟩

theorem exactly_eq_ok {received expected size : Nat} {source left : Source} {bytes : Bytes}
    (hsmooth : source.Smooth) (h : exactly received expected size source = (.ok bytes, left)) :
    bytes.length = size ∧ source.contents = bytes ++ left.contents ∧ left.Smooth := by
  obtain ⟨rest, hfill, hrest, hcontents⟩ := Source.fill_smooth hsmooth size
  simp only [exactly, hfill] at h
  split_ifs at h with hlength hnone
  · cases h
    exact ⟨hlength, by rw [hcontents, List.take_append_drop], hrest⟩
  · cases h
  · cases h

theorem uncompared_exactly (received expected size : Nat) :
    Uncompared (exactly received expected size) := by
  rintro source left _ h ⟨computed, found, rfl⟩
  simp only [exactly] at h
  split at h
  · cases h
  · split_ifs at h <;> cases h

/-- The qualifier of a packet with these bytes in front. -/
def qualifierOf (f : Framing) (lead : Bytes) : UInt16 :=
  if f.qualifierInMessage then UInt16.ofNat (Bytes.word lead) else f.defaultQualifier

theorem takes_qualifier {f : Framing} {lead : Bytes} (h : lead.length = f.qualifierLength) :
    Takes (qualifier f) lead (.ok (qualifierOf f lead)) := by
  rw [qualifier, qualifierOf]
  split_ifs with hq
  · exact (takes_exactly _ _ h).map _
  · have hlead : lead = [] := by
      rw [← List.length_eq_zero_iff, h, Framing.qualifierLength, if_neg hq]
    rw [hlead]
    exact Takes.pure _

theorem exists_of_qualifier_eq_ok {f : Framing} {source left : Source} {value : UInt16}
    (hsmooth : source.Smooth) (h : qualifier f source = (.ok value, left)) :
    ∃ lead : Bytes, lead.length = f.qualifierLength ∧ value = qualifierOf f lead ∧
      source.contents = lead ++ left.contents ∧ left.Smooth := by
  rw [qualifier] at h
  split_ifs at h with hq
  · obtain ⟨lead, hread, rfl⟩ := map_eq_ok h
    obtain ⟨hlength, hcontents, hleft⟩ := exactly_eq_ok hsmooth hread
    exact ⟨lead, hlength, by rw [qualifierOf, if_pos hq]; rfl, hcontents, hleft⟩
  · cases h
    exact ⟨[], by rw [Framing.qualifierLength, if_neg hq]; rfl, by rw [qualifierOf, if_neg hq],
      rfl, hsmooth⟩

theorem uncompared_qualifier (f : Framing) : Uncompared (qualifier f) := by
  intro source left error h
  rw [qualifier] at h
  split_ifs at h with hq
  · obtain ⟨error' | lead, hread, hmap⟩ := map_eq h
    · cases hmap
      exact uncompared_exactly _ _ _ hread
    · cases hmap
  · cases h

theorem takes_bodyLength {f : Framing} {length : Nat} (h : length ≤ f.effectiveMaxBody) :
    Takes (bodyLength f (length + f.crcLength)) [] (.ok length) := by
  rw [bodyLength, Nat.add_sub_cancel, if_neg (Nat.not_lt.2 (Nat.le_add_left _ _)),
    if_neg (Nat.not_lt.2 h)]
  exact Takes.pure _

theorem bodyLength_eq_ok {f : Framing} {source left : Source} {dataLength length : Nat}
    (h : bodyLength f dataLength source = (.ok length, left)) :
    dataLength = length + f.crcLength ∧ length ≤ f.effectiveMaxBody ∧ left = source := by
  rw [bodyLength] at h
  split_ifs at h with hcrc hmax
  · cases h
  · cases h
  · cases h
    exact ⟨by omega, Nat.not_lt.1 hmax, rfl⟩

theorem uncompared_bodyLength (f : Framing) (dataLength : Nat) :
    Uncompared (bodyLength f dataLength) := by
  rintro source left _ h ⟨computed, found, rfl⟩
  rw [bodyLength] at h
  split_ifs at h <;> cases h

/-- What a reader finds when it compares the checksum. -/
def compared (f : Framing) (rawHeader body trailer : Bytes) : Except PacketError Unit :=
  match f.crc with
  | none => .ok ()
  | some crc =>
    let found := UInt16.ofNat (Bytes.word trailer)
    let computed := crc.checksum rawHeader body
    if computed = found then .ok () else .error (.crcMismatch computed found)

theorem takes_checksum {f : Framing} (received expected : Nat) (rawHeader body : Bytes)
    {trailer : Bytes} (h : trailer.length = f.crcLength) :
    Takes (checksum f received expected rawHeader body) trailer
      (compared f rawHeader body trailer) := by
  rw [checksum, compared]
  rw [Framing.crcLength] at h
  cases hcrc : f.crc with
  | none =>
    rw [hcrc] at h
    rw [List.length_eq_zero_iff.1 h]
    exact Takes.pure _
  | some crc =>
    rw [hcrc] at h
    refine (takes_exactly _ _ h).bind_nil ?_
    dsimp only
    by_cases hsum : crc.checksum rawHeader body = UInt16.ofNat (Bytes.word trailer)
    · rw [if_pos hsum, if_neg (not_not.2 hsum)]
      exact Takes.pure _
    · rw [if_neg hsum, if_pos hsum]
      exact Takes.throw _

theorem exists_of_checksum {f : Framing} {received expected : Nat} {rawHeader body : Bytes}
    {source left : Source} {result : Except PacketError Unit} (hsmooth : source.Smooth)
    (hwhole : Whole result)
    (h : checksum f received expected rawHeader body source = (result, left)) :
    ∃ trailer : Bytes, trailer.length = f.crcLength ∧
      compared f rawHeader body trailer = result ∧
      source.contents = trailer ++ left.contents := by
  rw [checksum] at h
  cases hcrc : f.crc with
  | none =>
    rw [hcrc] at h
    cases h
    exact ⟨[], by simp [Framing.crcLength, hcrc], by rw [compared, hcrc], rfl⟩
  | some crc =>
    rw [hcrc] at h
    obtain ⟨trailer, middle, hread, h⟩ := bind_eq_whole (uncompared_exactly _ _ _) hwhole h
    obtain ⟨hlength, hcontents, -⟩ := exactly_eq_ok hsmooth hread
    have htrailer : trailer.length = f.crcLength := by simp [Framing.crcLength, hcrc, hlength]
    dsimp only at h
    split_ifs at h with hsum
    · cases h
      exact ⟨trailer, htrailer, by simp only [compared, hcrc]; rw [if_neg hsum], hcontents⟩
    · cases h
      exact ⟨trailer, htrailer, by simp only [compared, hcrc]; rw [if_pos (not_not.1 hsum)],
        hcontents⟩

end PacketReading

/-- Bytes cut where a reader cuts them. -/
structure Sections (f : Framing) where
  lead : Bytes
  header : Bytes
  body : Bytes
  trailer : Bytes
  length_lead : lead.length = f.qualifierLength
  length_header : header.length = Header.size
  length_trailer : trailer.length = f.crcLength
  /-- The length field tells how long body and checksum are. -/
  lengthField_eq : (Header.ofBytes header).2.toNat + 1 = body.length + f.crcLength
  body_le : body.length ≤ f.effectiveMaxBody

namespace Sections
open PacketReading

variable {f : Framing}

def bytes (w : Sections f) : Bytes := w.lead ++ (w.header ++ (w.body ++ w.trailer))

def packet (w : Sections f) : Packet where
  header := (Header.ofBytes w.header).1
  qualifier := qualifierOf f w.lead
  body := w.body

@[simp] theorem body_packet (w : Sections f) : w.packet.body = w.body := rfl

/-- What a reader says of the sections. -/
def verdict (w : Sections f) : Except PacketError Packet :=
  (compared f w.header w.body w.trailer).map fun _ => w.packet

/-- A reader takes the sections and nothing else, also when the checksum is wrong. -/
theorem takes_bytes (w : Sections f) : Takes (PacketReading.packet f) w.bytes w.verdict := by
  unfold PacketReading.packet
  dsimp only
  refine (takes_qualifier w.length_lead).bind ((takes_exactly _ _ w.length_header).bind ?_)
  rw [w.lengthField_eq]
  refine (takes_bodyLength w.body_le).bind ((takes_exactly _ _ rfl).bind ?_)
  -- A failed comparison is the last thing a reader does, so it takes no fewer bytes.
  simp only [bind_pure_comp]
  exact (takes_checksum _ _ _ _ w.length_trailer).map _

/-- Every packet that a reader takes, be its checksum right or wrong, is cut into sections. -/
theorem exists_of_packet {source left : Source} {result : Except PacketError Packet}
    (hsmooth : source.Smooth) (hwhole : Whole result)
    (h : PacketReading.packet f source = (result, left)) :
    ∃ w : Sections f, source.contents = w.bytes ++ left.contents ∧ w.verdict = result := by
  unfold PacketReading.packet at h
  simp only [bind_pure_comp] at h
  -- `s₁` to `s₄` are the sources between the steps; what each step took is the difference.
  obtain ⟨qualifier, s₁, hread, h₁⟩ := bind_eq_whole (uncompared_qualifier f) hwhole h
  obtain ⟨lead, hlead, rfl, hcut, hs₁⟩ := exists_of_qualifier_eq_ok hsmooth hread
  obtain ⟨header, s₂, hread, h₂⟩ := bind_eq_whole (uncompared_exactly _ _ _) hwhole h₁
  obtain ⟨hheader, hcut₁, hs₂⟩ := exactly_eq_ok hs₁ hread
  obtain ⟨length, s₃, hread, h₃⟩ := bind_eq_whole (uncompared_bodyLength f _) hwhole h₂
  obtain ⟨hfield, hmax, rfl⟩ := bodyLength_eq_ok hread
  obtain ⟨body, s₄, hread, h₄⟩ := bind_eq_whole (uncompared_exactly _ _ _) hwhole h₃
  obtain ⟨rfl, hcut₂, hs₄⟩ := exactly_eq_ok hs₂ hread
  obtain ⟨summed, hread, rfl⟩ := map_eq h₄
  have hsummed : Whole summed := by
    rintro error rfl
    exact hwhole error rfl
  obtain ⟨trailer, htrailer, rfl, hcut₃⟩ := exists_of_checksum hs₄ hsummed hread
  refine ⟨⟨lead, header, body, trailer, hlead, hheader, htrailer, hfield, hmax⟩, ?_, rfl⟩
  simp only [bytes, List.append_assoc, hcut, hcut₁, hcut₂, hcut₃]

theorem verdict_eq_ok {w : Sections f} {p : Packet} (h : w.verdict = .ok p) :
    compared f w.header w.body w.trailer = .ok () ∧ w.packet = p := by
  rw [verdict] at h
  rcases hcompared : compared f w.header w.body w.trailer with error | ⟨⟩
  · rw [hcompared] at h
    cases h
  · rw [hcompared] at h
    cases h
    exact ⟨rfl, rfl⟩

theorem decode_bytes (w : Sections f) : Packet.decode f w.bytes = w.verdict := by
  obtain ⟨left, hread, -, hleft⟩ := w.takes_bytes _ [] (Source.smooth_ofBytes w.bytes)
    (by rw [Source.contents_ofBytes, List.append_nil])
  rw [Packet.decode, Packet.read, hread]
  cases w.verdict with
  | error error => rfl
  | ok p => simp only [hleft, List.isEmpty_nil, if_true]

theorem exists_of_decode_eq_ok {bytes : Bytes} {p : Packet} (h : Packet.decode f bytes = .ok p) :
    ∃ w : Sections f, w.bytes = bytes ∧ w.verdict = .ok p := by
  rw [Packet.decode] at h
  rcases hread : Packet.read f (.ofBytes bytes) with ⟨error | q, left⟩
  · rw [hread] at h
    cases h
  · rw [hread] at h
    dsimp only at h
    split_ifs at h with hleft
    cases h
    obtain ⟨w, hcontents, hverdict⟩ :=
      exists_of_packet (Source.smooth_ofBytes bytes) (whole_ok p) hread
    rw [Source.contents_ofBytes, List.isEmpty_iff.1 hleft, List.append_nil] at hcontents
    exact ⟨w, hcontents.symm, hverdict⟩

end Sections
end SpaceLink
