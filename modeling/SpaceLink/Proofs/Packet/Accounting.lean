import SpaceLink.Proofs.Packet.Arrival

/-! # How far a reader goes

A reader of bytes that end says what it wanted and what it had, and a refused length costs it the
bytes up to the data field and no more. `Exhausts` says of a step what `Takes` cannot: that the
bytes end inside it. A packet that ends early is a row of steps that take what they want and one
step that exhausts the rest.
-/
namespace SpaceLink

namespace Framing

/-- Where the data field begins. -/
def headLength (f : Framing) : Nat := f.qualifierLength + Header.size

/-- How many bytes a reader wants that has so many and has not come to the data field. -/
def wantedOfHead (f : Framing) (received : Nat) : Nat :=
  if received < f.qualifierLength then f.qualifierLength else f.headLength

/-- How long the data field is by the length field in front of it. -/
def dataLength (f : Framing) (bytes : Bytes) : Nat := Bytes.word (f.lengthBytes bytes) + 1

/-- A data field of this length holds a checksum, and a body within the limit. -/
def Accepts (f : Framing) (dataLength : Nat) : Prop :=
  f.crcLength ≤ dataLength ∧ dataLength - f.crcLength ≤ f.effectiveMaxBody

theorem headLength_pos (f : Framing) : 0 < f.headLength := Nat.lt_add_left _ (by decide)

variable {f : Framing}

theorem length_lengthBytes {bytes : Bytes} (h : f.headLength ≤ bytes.length) :
    (f.lengthBytes bytes).length = 2 := by
  rw [headLength, Header.size] at h
  rw [lengthBytes, List.length_take, List.length_drop]
  omega

/-- The length field holds a word of sixteen bits. -/
theorem toNat_lengthBytes {bytes : Bytes} (h : f.headLength ≤ bytes.length) :
    (UInt16.ofNat (Bytes.word (f.lengthBytes bytes))).toNat + 1 = f.dataLength bytes := by
  have hlt := Bytes.word_lt (f.lengthBytes bytes)
  rw [length_lengthBytes h] at hlt
  rw [UInt16.toNat_ofNat', Nat.mod_eq_of_lt (show _ < 2 ^ 16 from hlt), dataLength]

theorem dataLength_append {bytes : Bytes} (h : f.headLength ≤ bytes.length) (more : Bytes) :
    f.dataLength (bytes ++ more) = f.dataLength bytes := by
  have htake := (length_lengthBytes h).ge
  rw [headLength, Header.size] at h
  rw [lengthBytes, List.length_take] at htake
  rw [dataLength, dataLength, lengthBytes, lengthBytes, List.drop_append_of_le_length (by omega),
    List.take_append_of_le_length (by omega)]

/-- The header as a reader has it tells the same length. -/
theorem toNat_lengthField {lead header : Bytes} (hlead : lead.length = f.qualifierLength)
    (hheader : header.length = Header.size) (rest : Bytes) :
    (Header.ofBytes header).2.toNat + 1 = f.dataLength (lead ++ (header ++ rest)) := by
  have hhead : f.headLength ≤ (lead ++ (header ++ rest)).length := by
    simp only [List.length_append, headLength]
    omega
  rw [← toNat_lengthBytes hhead, Sections.lengthBytes_append hlead hheader]
  rfl

end Framing

namespace Sections

theorem dataLength_bytes {f : Framing} (w : Sections f) :
    f.dataLength w.bytes = w.body.length + f.crcLength := by
  rw [bytes, ← Framing.toNat_lengthField w.length_lead w.length_header, w.lengthField_eq]

end Sections

namespace PacketReading

variable {α β : Type}

/-- What a reader says that had `received` bytes of the `expected` when the file ended. -/
def shortfall (expected received : Nat) : PacketError :=
  if received = 0 then .connectionClosed else .truncated expected received

theorem shortfall_of_pos {received : Nat} (h : 0 < received) (expected : Nat) :
    shortfall expected received = .truncated expected received :=
  if_neg h.ne'

/-- The bytes end inside the step, which takes them all and fails. -/
def Exhausts (step : PacketReading α) (bytes : Bytes) (error : PacketError) : Prop :=
  ∀ source : Source, source.Smooth → source.contents = bytes →
    ∃ left : Source, step source = (.error error, left) ∧ left.contents = []

theorem Exhausts.bind {step : PacketReading α} {next : α → PacketReading β} {bytes : Bytes}
    {error : PacketError} (hstep : Exhausts step bytes error) :
    Exhausts (step >>= next) bytes error := by
  intro source hsmooth hcontents
  obtain ⟨left, hread, hleft⟩ := hstep source hsmooth hcontents
  exact ⟨left, bind_of_error hread, hleft⟩

theorem Exhausts.map {step : PacketReading α} {bytes : Bytes} {error : PacketError}
    (hstep : Exhausts step bytes error) (g : α → β) : Exhausts (g <$> step) bytes error := by
  rw [map_eq_pure_bind]
  exact hstep.bind

/-- The step has what it wants, and the bytes end inside the next one. -/
theorem Takes.bind_exhausts {step : PacketReading α} {next : α → PacketReading β}
    {first second : Bytes} {a : α} {error : PacketError} (hstep : Takes step first (.ok a))
    (hnext : Exhausts (next a) second error) :
    Exhausts (step >>= next) (first ++ second) error := by
  intro source hsmooth hcontents
  obtain ⟨middle, hread, hmiddle, hrest⟩ := hstep source second hsmooth hcontents
  obtain ⟨left, hread', hleft⟩ := hnext middle hmiddle hrest
  exact ⟨left, by rw [bind_of_ok hread, hread'], hleft⟩

theorem Takes.bind_error {step : PacketReading α} {next : α → PacketReading β} {bytes : Bytes}
    {error : PacketError} (hstep : Takes step bytes (.error error)) :
    Takes (step >>= next) bytes (.error error) := by
  intro source rest hsmooth hcontents
  obtain ⟨left, hread, hleft⟩ := hstep source rest hsmooth hcontents
  exact ⟨left, bind_of_error hread, hleft⟩

theorem exhausts_exactly (received expected : Nat) {size : Nat} {bytes : Bytes}
    (h : bytes.length < size) :
    Exhausts (exactly received expected size) bytes
      (shortfall expected (received + bytes.length)) := by
  intro source hsmooth hcontents
  obtain ⟨left, hread, -, hleft⟩ := exactly_of_smooth hsmooth received expected size
  refine ⟨left, ?_, ?_⟩
  · rw [hread, hcontents, exactlyOf, if_neg (Nat.not_le.2 h), shortfall]
    split_ifs <;> rfl
  · rw [hleft, hcontents, List.drop_eq_nil_of_le h.le]

theorem exhausts_qualifier {f : Framing} {bytes : Bytes} (h : bytes.length < f.qualifierLength) :
    Exhausts (qualifier f) bytes (shortfall f.qualifierLength bytes.length) := by
  have hq : f.qualifierInMessage = true := by
    by_contra hq
    rw [Framing.qualifierLength, if_neg hq] at h
    exact Nat.not_lt_zero _ h
  have hexactly := exhausts_exactly 0 f.qualifierLength h
  rw [Nat.zero_add] at hexactly
  rw [qualifier, if_pos hq]
  exact hexactly.map _

theorem exhausts_checksum {f : Framing} (received expected : Nat) (rawHeader body : Bytes)
    {trailer : Bytes} (h : trailer.length < f.crcLength) :
    Exhausts (checksum f received expected rawHeader body) trailer
      (shortfall expected (received + trailer.length)) := by
  rw [Framing.crcLength] at h
  rw [checksum]
  cases hcrc : f.crc with
  | none => simp [hcrc] at h
  | some crc =>
    rw [hcrc] at h
    exact (exhausts_exactly received expected h).bind

theorem takes_bodyLength_malformed {f : Framing} {dataLength : Nat}
    (h : dataLength < f.crcLength) :
    Takes (bodyLength f dataLength) [] (.error (.malformed
      s!"data field of {dataLength} bytes cannot hold a {f.crcLength}-byte CRC")) := by
  rw [bodyLength, if_pos h]
  exact Takes.throw _

theorem takes_bodyLength_tooLarge {f : Framing} {dataLength : Nat}
    (hcrc : f.crcLength ≤ dataLength) (h : f.effectiveMaxBody < dataLength - f.crcLength) :
    Takes (bodyLength f dataLength) []
      (.error (.bodyTooLarge (dataLength - f.crcLength) f.effectiveMaxBody)) := by
  rw [bodyLength, if_neg (Nat.not_lt.2 hcrc), if_pos h]
  exact Takes.throw _

/-- The bytes end in front of the data field. -/
theorem exhausts_packet_of_head {f : Framing} {bytes : Bytes} (h : bytes.length < f.headLength) :
    Exhausts (packet f) bytes (shortfall (f.wantedOfHead bytes.length) bytes.length) := by
  unfold packet
  dsimp only
  rw [Framing.wantedOfHead]
  split_ifs with hlead
  · exact (exhausts_qualifier hlead).bind
  · obtain ⟨lead, rest, rfl, hlength⟩ := Bytes.exists_append_of_le (Nat.not_lt.1 hlead)
    rw [Framing.headLength, List.length_append] at h
    have hexactly := exhausts_exactly f.qualifierLength f.headLength
      (show rest.length < Header.size by omega)
    rw [List.length_append, hlength]
    exact (takes_qualifier hlength).bind_exhausts hexactly.bind

section
variable {f : Framing} {lead header : Bytes} (hlead : lead.length = f.qualifierLength)
  (hheader : header.length = Header.size)
include hlead hheader

/-- A length that is refused is refused where the data field begins. -/
theorem takes_packet_refused {dataLength : Nat} {error : PacketError}
    (hlength : (Header.ofBytes header).2.toNat + 1 = dataLength)
    (h : Takes (bodyLength f dataLength) [] (.error error)) :
    Takes (packet f) (lead ++ header) (.error error) := by
  have hhead : Takes (packet f) (lead ++ (header ++ [])) (.error error) := by
    unfold packet
    dsimp only
    rw [← hlength] at h
    exact (takes_qualifier hlead).bind ((takes_exactly _ _ hheader).bind h.bind_error)
  rwa [List.append_nil] at hhead

/-- The bytes end inside the data field, in the body or in the checksum. -/
theorem exhausts_packet_of_data {size : Nat} (hsize : size ≤ f.effectiveMaxBody)
    (hlength : (Header.ofBytes header).2.toNat + 1 = size + f.crcLength) {data : Bytes}
    (h : data.length < size + f.crcLength) :
    Exhausts (packet f) (lead ++ (header ++ data))
      (shortfall (f.headLength + (size + f.crcLength)) (f.headLength + data.length)) := by
  unfold packet
  dsimp only
  refine (takes_qualifier hlead).bind_exhausts ((takes_exactly _ _ hheader).bind_exhausts ?_)
  rw [hlength]
  refine (takes_bodyLength hsize).bind_exhausts ?_
  by_cases hbody : data.length < size
  · exact (exhausts_exactly _ _ hbody).bind
  · obtain ⟨body, trailer, rfl, rfl⟩ := Bytes.exists_append_of_le (Nat.not_lt.1 hbody)
    rw [List.length_append] at h ⊢
    have htrailer := exhausts_checksum (f.headLength + body.length)
      (f.headLength + (body.length + f.crcLength)) header body
      (show trailer.length < f.crcLength by omega)
    rw [Nat.add_assoc] at htrailer
    exact (takes_exactly _ _ rfl).bind_exhausts htrailer.bind

end

end PacketReading

namespace Packet
open PacketReading

/-- What a reader says of bytes with the end of the file behind them, and what it leaves of them. -/
structure Accounts (f : Framing) (bytes : Bytes) (result : Except PacketError Packet)
    (left : Bytes) : Prop where
  closed : bytes = [] → result = .error .connectionClosed ∧ left = []
  cut_head : bytes ≠ [] → bytes.length < f.headLength →
    result = .error (.truncated (f.wantedOfHead bytes.length) bytes.length) ∧ left = []
  malformed : f.headLength ≤ bytes.length → f.dataLength bytes < f.crcLength →
    result = .error (.malformed
      s!"data field of {f.dataLength bytes} bytes cannot hold a {f.crcLength}-byte CRC") ∧
    left = bytes.drop f.headLength
  too_large : f.headLength ≤ bytes.length → f.crcLength ≤ f.dataLength bytes →
    f.effectiveMaxBody < f.dataLength bytes - f.crcLength →
    result = .error (.bodyTooLarge (f.dataLength bytes - f.crcLength) f.effectiveMaxBody) ∧
      left = bytes.drop f.headLength
  cut_data : f.headLength ≤ bytes.length → f.Accepts (f.dataLength bytes) →
    bytes.length < f.headLength + f.dataLength bytes →
    result = .error (.truncated (f.headLength + f.dataLength bytes) bytes.length) ∧ left = []
  whole : f.Accepts (f.dataLength bytes) → f.headLength + f.dataLength bytes ≤ bytes.length →
    (result = decode f (bytes.take (f.headLength + f.dataLength bytes)) ∧
      ((∃ p : Packet, result = .ok p) ∨
        f.crc ≠ none ∧ ∃ computed found : UInt16,
          result = .error (.crcMismatch computed found))) ∧
    left = bytes.drop (f.headLength + f.dataLength bytes)

variable {f : Framing} {bytes : Bytes} {source : Source}

namespace Accounts

variable {result : Except PacketError Packet} {left : Bytes}

/-- An accepted length is no reason to refuse the bytes. -/
theorem error_of_accepts {error : PacketError} (h : Accounts f bytes (.error error) left)
    (hhead : f.headLength ≤ bytes.length) (haccepts : f.Accepts (f.dataLength bytes)) :
    (∃ expected received : Nat, error = .truncated expected received) ∨ error.IsMismatch := by
  by_cases hcut : bytes.length < f.headLength + f.dataLength bytes
  · obtain ⟨hresult, -⟩ := h.cut_data hhead haccepts hcut
    cases hresult
    exact .inl ⟨_, _, rfl⟩
  · obtain ⟨⟨-, ⟨p, hresult⟩ | ⟨-, computed, found, hresult⟩⟩, -⟩ :=
      h.whole haccepts (Nat.not_lt.1 hcut)
    · cases hresult
    · cases hresult
      exact .inr ⟨computed, found, rfl⟩

theorem malformed_iff (h : Accounts f bytes result left) (hhead : f.headLength ≤ bytes.length) :
    (∃ reason : String, result = .error (.malformed reason)) ↔
      f.dataLength bytes < f.crcLength := by
  constructor
  · rintro ⟨reason, rfl⟩
    by_contra hcrc
    have hcrc := Nat.not_lt.1 hcrc
    by_cases hmax : f.effectiveMaxBody < f.dataLength bytes - f.crcLength
    · cases (h.too_large hhead hcrc hmax).1
    · rcases h.error_of_accepts hhead ⟨hcrc, Nat.not_lt.1 hmax⟩ with ⟨_, _, ⟨⟩⟩ | ⟨_, _, ⟨⟩⟩
  · intro hcrc
    exact ⟨_, (h.malformed hhead hcrc).1⟩

theorem tooLarge_iff (h : Accounts f bytes result left) (hhead : f.headLength ≤ bytes.length)
    (size max : Nat) :
    result = .error (.bodyTooLarge size max) ↔
      f.dataLength bytes = size + f.crcLength ∧ max = f.effectiveMaxBody ∧ max < size := by
  constructor
  · rintro rfl
    by_cases hcrc : f.dataLength bytes < f.crcLength
    · cases (h.malformed hhead hcrc).1
    · have hcrc := Nat.not_lt.1 hcrc
      by_cases hmax : f.effectiveMaxBody < f.dataLength bytes - f.crcLength
      · cases (h.too_large hhead hcrc hmax).1
        exact ⟨(Nat.sub_add_cancel hcrc).symm, rfl, hmax⟩
      · rcases h.error_of_accepts hhead ⟨hcrc, Nat.not_lt.1 hmax⟩ with ⟨_, _, ⟨⟩⟩ | ⟨_, _, ⟨⟩⟩
  · rintro ⟨hlength, rfl, hmax⟩
    have hsize : f.dataLength bytes - f.crcLength = size := by omega
    obtain ⟨hresult, -⟩ := h.too_large hhead (by omega) (by rwa [hsize])
    rw [hresult, hsize]

end Accounts

/-- A refused length leaves all that stands behind the header. -/
theorem read_of_refused {error : PacketError} (hsmooth : source.Smooth)
    (hcontents : source.contents = bytes) (hhead : f.headLength ≤ bytes.length)
    (hrefused : Takes (bodyLength f (f.dataLength bytes)) [] (.error error)) :
    (read f source).1 = .error error ∧ (read f source).2.contents = bytes.drop f.headLength := by
  obtain ⟨lead, header, rest, rfl, hlead, hheader⟩ := Sections.exists_head hhead
  have htakes := takes_packet_refused hlead hheader
    (Framing.toNat_lengthField hlead hheader rest) hrefused
  rw [← List.append_assoc] at hcontents ⊢
  obtain ⟨left, hread, -, hleft⟩ := htakes source rest hsmooth hcontents
  have hlength : (lead ++ header).length = f.headLength := by
    rw [List.length_append, hlead, hheader, Framing.headLength]
  rw [read, hread, List.drop_left' hlength]
  exact ⟨rfl, hleft⟩

theorem read_of_exhausts {error : PacketError} (hsmooth : source.Smooth)
    (h : Exhausts (packet f) source.contents error) :
    (read f source).1 = .error error ∧ (read f source).2.contents = [] := by
  obtain ⟨left, hread, hleft⟩ := h source hsmooth rfl
  rw [read, hread]
  exact ⟨rfl, hleft⟩

theorem read_of_cut_data (hsmooth : source.Smooth) (hcontents : source.contents = bytes)
    (hhead : f.headLength ≤ bytes.length) (haccepts : f.Accepts (f.dataLength bytes))
    (hcut : bytes.length < f.headLength + f.dataLength bytes) :
    (read f source).1 = .error (.truncated (f.headLength + f.dataLength bytes) bytes.length) ∧
      (read f source).2.contents = [] := by
  obtain ⟨hcrc, hmax⟩ := haccepts
  obtain ⟨size, hsize⟩ := Nat.exists_eq_add_of_le' hcrc
  rw [hsize] at hcut ⊢
  rw [hsize, Nat.add_sub_cancel] at hmax
  obtain ⟨lead, header, data, rfl, hlead, hheader⟩ := Sections.exists_head hhead
  rw [← Framing.toNat_lengthField hlead hheader] at hsize
  have hlength : (lead ++ (header ++ data)).length = f.headLength + data.length := by
    simp only [List.length_append, Framing.headLength]
    omega
  rw [hlength] at hcut ⊢
  have hexhausts := exhausts_packet_of_data hlead hheader hmax hsize (Nat.lt_of_add_lt_add_left hcut)
  rw [← hcontents, shortfall_of_pos (Nat.add_pos_left f.headLength_pos _)] at hexhausts
  exact read_of_exhausts hsmooth hexhausts

/-- A data field that is accepted and all there can be cut. -/
theorem isCut_take (haccepts : f.Accepts (f.dataLength bytes))
    (hwhole : f.headLength + f.dataLength bytes ≤ bytes.length) :
    IsCut f (bytes.take (f.headLength + f.dataLength bytes)) := by
  obtain ⟨hcrc, hmax⟩ := haccepts
  have hlength := List.length_take_of_le hwhole
  have hhead : f.headLength ≤ (bytes.take (f.headLength + f.dataLength bytes)).length := by omega
  have hsame := Framing.dataLength_append hhead (bytes.drop (f.headLength + f.dataLength bytes))
  rw [List.take_append_drop] at hsame
  refine Sections.isCut_of_length (n := f.dataLength bytes - f.crcLength) ?_ ?_ hmax
  · rw [hlength, ← Framing.headLength]
    omega
  · rw [Framing.toNat_lengthBytes hhead, ← hsame]
    omega

theorem accounts_read (f : Framing) (hsmooth : source.Smooth) :
    Accounts f source.contents (read f source).1 (read f source).2.contents where
  closed hempty := by
    have hexhausts : Exhausts (packet f) [] .connectionClosed :=
      exhausts_packet_of_head f.headLength_pos
    rw [← hempty] at hexhausts
    exact read_of_exhausts hsmooth hexhausts
  cut_head hne hshort := by
    have hexhausts := exhausts_packet_of_head hshort
    rw [shortfall_of_pos (List.length_pos_iff.2 hne)] at hexhausts
    exact read_of_exhausts hsmooth hexhausts
  malformed hhead hcrc := read_of_refused hsmooth rfl hhead (takes_bodyLength_malformed hcrc)
  too_large hhead hcrc hmax :=
    read_of_refused hsmooth rfl hhead (takes_bodyLength_tooLarge hcrc hmax)
  cut_data hhead haccepts hcut := read_of_cut_data hsmooth rfl hhead haccepts hcut
  whole haccepts hwhole := by
    have hcut := isCut_take haccepts hwhole
    obtain ⟨hread, -, hleft⟩ := read_of_cut hcut hsmooth (List.take_append_drop _ _).symm
    rw [hread]
    exact ⟨⟨rfl, decode_of_cut hcut⟩, hleft⟩

/-- An encoding with its end cut off is reported as such. -/
theorem read_of_cut_wire {p : Packet} {wire : Bytes} (hencode : p.encode f = .ok wire)
    (hfront : source.contents <+: wire) (hcut : source.contents.length < wire.length)
    (hsmooth : source.Smooth) :
    (read f source).1 = .error (shortfall
      (if source.contents.length < f.headLength then f.wantedOfHead source.contents.length
        else wire.length) source.contents.length) ∧
      (read f source).2.contents = [] := by
  split_ifs with hhead
  · exact read_of_exhausts hsmooth (exhausts_packet_of_head hhead)
  · have hhead := Nat.not_lt.1 hhead
    have hframeable := PacketWriting.frameable_of_encode_eq_ok hencode
    rw [encode_of_frameable hframeable] at hencode
    cases hencode
    have hlength : f.dataLength source.contents = p.body.length + f.crcLength := by
      obtain ⟨more, hmore⟩ := hfront
      rw [← Framing.dataLength_append hhead more, hmore, ← bytes_sections hframeable,
        Sections.dataLength_bytes]
      rfl
    have haccepts : f.Accepts (f.dataLength source.contents) := by
      rw [hlength]
      exact ⟨Nat.le_add_left _ _, by rw [Nat.add_sub_cancel]; exact hframeable.body_le⟩
    have hwire : (p.wire f).length = f.headLength + f.dataLength source.contents := by
      rw [length_wire, wireSize, hlength, Nat.add_assoc, Framing.headLength]
    rw [shortfall_of_pos (Nat.lt_of_lt_of_le f.headLength_pos hhead), hwire]
    exact read_of_cut_data hsmooth rfl hhead haccepts (by rwa [← hwire])

/-- A reader gives account of all bytes that end, however they arrive: which of them it has taken,
and what it wanted when they were too few. An encoding that is cut anywhere in front of its end is
found closed or truncated, with the number of bytes there were and the number that is known from
them to belong to the packet. -/
theorem read_accounted (f : Framing) {source : Source} (hsmooth : source.Smooth) :
    let bytes := source.contents
    let result := (read f source).1
    let left := (read f source).2.contents
    Accounts f bytes result left ∧
      (f.headLength ≤ bytes.length →
        ((∃ reason : String, result = .error (.malformed reason)) ↔
          f.dataLength bytes < f.crcLength) ∧
        ∀ size max : Nat, result = .error (.bodyTooLarge size max) ↔
          f.dataLength bytes = size + f.crcLength ∧ max = min f.maxBodySize 65536 ∧ max < size) ∧
      ∀ (p : Packet) (wire : Bytes), p.encode f = .ok wire → bytes <+: wire →
        bytes.length < wire.length →
          result = .error (shortfall
            (if bytes.length < f.headLength then f.wantedOfHead bytes.length else wire.length)
            bytes.length) ∧
          left = [] := by
  intro bytes result left
  have haccounts : Accounts f bytes result left := accounts_read f hsmooth
  refine ⟨haccounts, ?_, ?_⟩
  · intro hhead
    exact ⟨haccounts.malformed_iff hhead, haccounts.tooLarge_iff hhead⟩
  · intro p wire hencode hfront hcut
    exact read_of_cut_wire hencode hfront hcut hsmooth

/-- The second byte of the checksum is missing. -/
theorem read_accounted_in_checksum :
    let f : Framing := { qualifierInMessage := true, crc := some .ccittFalse }
    let source : Source := [.data [0x12, 0x34, 0x30, 5, 0xC0], .fault (.ofKind .interrupted),
      .data [7, 0, 3, 0xAA, 0xBB, 0x6A]]
    (read f source).1 = .error (.truncated 12 11) ∧ (read f source).2.contents = [] := by
  intro f source
  let p : Packet := {
    header := { version := 1, packetType := .telecommand, apid := 5, sequenceCount := 7 }
    qualifier := 0x1234
    body := [0xAA, 0xBB] }
  have hsmooth : source.Smooth := by
    simp [Source.Smooth, source, ReadEvent.IsSmooth, IoError.isInterrupted, IoError.ofKind]
  have hencode : p.encode f =
      .ok [0x12, 0x34, 0x30, 5, 0xC0, 7, 0, 3, 0xAA, 0xBB, 0x6A, 0xF4] := by
    decide +kernel
  obtain ⟨-, -, hwire⟩ := read_accounted f hsmooth
  exact hwire p _ hencode ⟨[0xF4], rfl⟩ (by decide)

end Packet
end SpaceLink
