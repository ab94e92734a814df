import SpaceLink.Proofs.Packet.Bijection

/-! # Reading on after damage

Damage that spares the length field leaves a packet cut into the same sections. So a reader takes
it off the stream whole, whatever it then says of it, and stands at the next packet.
-/
namespace SpaceLink

theorem Bytes.exists_append_of_le {bytes : Bytes} {n : Nat} (h : n ≤ bytes.length) :
    ∃ front rest : Bytes, bytes = front ++ rest ∧ front.length = n :=
  ⟨bytes.take n, bytes.drop n, (List.take_append_drop n bytes).symm, List.length_take_of_le h⟩

/-- The two bytes of the length field. -/
def Framing.lengthBytes (f : Framing) (bytes : Bytes) : Bytes :=
  (bytes.drop (f.qualifierLength + 4)).take 2

/-- Any bytes but those of the length field may differ. -/
structure Altered (f : Framing) (wire altered : Bytes) : Prop where
  length_eq : altered.length = wire.length
  lengthBytes_eq : f.lengthBytes altered = f.lengthBytes wire

/-- The bytes are those of some sections. -/
def IsCut (f : Framing) (bytes : Bytes) : Prop := ∃ w : Sections f, w.bytes = bytes

namespace Sections

variable {f : Framing}

theorem length_bytes (w : Sections f) :
    w.bytes.length = f.qualifierLength + Header.size + w.body.length + f.crcLength := by
  simp only [bytes, List.length_append, w.length_lead, w.length_header, w.length_trailer]
  omega

/-- The length field stands at the end of the header. -/
theorem lengthBytes_append {lead header : Bytes} (hlead : lead.length = f.qualifierLength)
    (hheader : header.length = Header.size) (rest : Bytes) :
    f.lengthBytes (lead ++ (header ++ rest)) = (header.drop 4).take 2 := by
  rw [Header.size] at hheader
  have hdrop : 4 ≤ header.length := by omega
  have htake : 2 ≤ (header.drop 4).length := by rw [List.length_drop]; omega
  rw [Framing.lengthBytes, ← List.drop_drop, List.drop_left' hlead,
    List.drop_append_of_le_length hdrop, List.take_append_of_le_length htake]

/-- The sections in front of the data field, and what stands behind them. -/
theorem exists_head {bytes : Bytes} (h : f.qualifierLength + Header.size ≤ bytes.length) :
    ∃ lead header rest : Bytes, bytes = lead ++ (header ++ rest) ∧
      lead.length = f.qualifierLength ∧ header.length = Header.size := by
  obtain ⟨lead, afterLead, rfl, hlead⟩ := Bytes.exists_append_of_le
    (show f.qualifierLength ≤ bytes.length by omega)
  obtain ⟨header, rest, rfl, hheader⟩ := Bytes.exists_append_of_le
    (show Header.size ≤ afterLead.length by rw [List.length_append] at h; omega)
  exact ⟨lead, header, rest, rfl, hlead, hheader⟩

/-- Bytes of the right length whose length field says so can be cut. -/
theorem isCut_of_length {bytes : Bytes} {n : Nat}
    (hlength : bytes.length = f.qualifierLength + Header.size + n + f.crcLength)
    (hfield : (UInt16.ofNat (Bytes.word (f.lengthBytes bytes))).toNat + 1 = n + f.crcLength)
    (hmax : n ≤ f.effectiveMaxBody) : IsCut f bytes := by
  obtain ⟨lead, header, afterHeader, rfl, hlead, hheader⟩ := exists_head
    (show f.qualifierLength + Header.size ≤ bytes.length by omega)
  obtain ⟨body, trailer, rfl, hbody⟩ := Bytes.exists_append_of_le
    (show n ≤ afterHeader.length by simp only [List.length_append] at hlength; omega)
  simp only [List.length_append] at hlength
  subst hbody
  have htrailer : trailer.length = f.crcLength := by omega
  rw [lengthBytes_append hlead hheader] at hfield
  exact ⟨⟨lead, header, body, trailer, hlead, hheader, htrailer, hfield, hmax⟩, rfl⟩

theorem isCut_of_altered {w : Sections f} {altered : Bytes} (h : Altered f w.bytes altered) :
    IsCut f altered := by
  refine isCut_of_length ?_ ?_ w.body_le
  · rw [h.length_eq, w.length_bytes]
  · rw [h.lengthBytes_eq, bytes, lengthBytes_append w.length_lead w.length_header]
    exact w.lengthField_eq

end Sections

namespace Packet

/-- The source as it is after so many reads, whatever they came to. -/
def afterReads (f : Framing) (reads : Nat) (source : Source) : Source :=
  (fun s => (read f s).2)^[reads] source

theorem afterReads_succ (f : Framing) (reads : Nat) (source : Source) :
    afterReads f (reads + 1) source = (read f (afterReads f reads source)).2 :=
  Function.iterate_succ_apply' _ reads source

variable {f : Framing} {pieces : List Bytes} {source : Source}

/-- One read takes one piece of a stream of pieces that can be cut. -/
theorem read_of_cut {bytes : Bytes} (hcut : IsCut f bytes) {rest : Bytes}
    (hsmooth : source.Smooth) (hcontents : source.contents = bytes ++ rest) :
    (read f source).1 = decode f bytes ∧ (read f source).2.Smooth ∧
      (read f source).2.contents = rest := by
  obtain ⟨w, rfl⟩ := hcut
  obtain ⟨left, hread, hleft, hrest⟩ := w.takes_bytes source rest hsmooth hcontents
  rw [read, hread, w.decode_bytes]
  exact ⟨rfl, hleft, hrest⟩

/-- So many reads take so many pieces. -/
theorem afterReads_of_cut (hcut : ∀ bytes ∈ pieces, IsCut f bytes)
    (hsmooth : source.Smooth) (hcontents : source.contents = pieces.flatten) {reads : Nat}
    (hreads : reads ≤ pieces.length) :
    (afterReads f reads source).Smooth ∧
      (afterReads f reads source).contents = (pieces.drop reads).flatten := by
  induction reads with
  | zero => exact ⟨hsmooth, hcontents⟩
  | succ k ih =>
    obtain ⟨hsmooth, hcontents⟩ := ih (Nat.le_of_succ_le hreads)
    rw [List.drop_eq_getElem_cons hreads, List.flatten_cons] at hcontents
    rw [afterReads_succ]
    exact (read_of_cut (hcut _ (List.getElem_mem hreads)) hsmooth hcontents).2

theorem decode_of_cut {bytes : Bytes} (hcut : IsCut f bytes) :
    (∃ p : Packet, decode f bytes = .ok p) ∨
      f.crc ≠ none ∧ ∃ computed found : UInt16,
        decode f bytes = .error (.crcMismatch computed found) := by
  obtain ⟨w, rfl⟩ := hcut
  rw [w.decode_bytes, Sections.verdict, PacketReading.compared]
  cases f.crc with
  | none => exact .inl ⟨_, rfl⟩
  | some crc =>
    dsimp only
    split_ifs with hsum
    · exact .inl ⟨_, rfl⟩
    · exact .inr ⟨by simp, _, _, rfl⟩

/-- The pieces are encodings of the packets, each altered outside its length field. -/
def AreAltered (f : Framing) (packets : List Packet) (pieces : List Bytes) : Prop :=
  List.Forall₂ (fun p bytes => ∃ wire : Bytes, p.encode f = .ok wire ∧ Altered f wire bytes)
    packets pieces

theorem AreAltered.isCut {packets : List Packet} (h : AreAltered f packets pieces) :
    ∀ bytes ∈ pieces, IsCut f bytes := by
  induction h with
  | nil => exact fun _ hmem => absurd hmem List.not_mem_nil
  | cons haltered _ ih =>
    obtain ⟨wire, hencode, haltered⟩ := haltered
    have hframeable := PacketWriting.frameable_of_encode_eq_ok hencode
    rw [encode_of_frameable hframeable] at hencode
    cases hencode
    rw [← bytes_sections hframeable] at haltered
    exact List.forall_mem_cons.2 ⟨Sections.isCut_of_altered haltered, ih⟩

/-- Each read takes one altered packet and says what is said of that packet alone; then the
connection is found closed. -/
theorem reads_altered {packets : List Packet} (haltered : AreAltered f packets pieces)
    (hsmooth : source.Smooth) (hcontents : source.contents = pieces.flatten) :
    (∀ (k : Nat) (hk : k < pieces.length),
      (read f (afterReads f k source)).1 = decode f pieces[k] ∧
      (afterReads f k source).contents = pieces[k] ++ (afterReads f (k + 1) source).contents ∧
      ((∃ p : Packet, decode f pieces[k] = .ok p) ∨
        f.crc ≠ none ∧ ∃ computed found : UInt16,
          decode f pieces[k] = .error (.crcMismatch computed found))) ∧
    (afterReads f pieces.length source).contents = [] ∧
    (read f (afterReads f pieces.length source)).1 = .error .connectionClosed := by
  have hcut := haltered.isCut
  refine ⟨?_, ?_⟩
  · intro k hk
    obtain ⟨hk_smooth, hk_contents⟩ := afterReads_of_cut hcut hsmooth hcontents (Nat.le_of_lt hk)
    rw [List.drop_eq_getElem_cons hk, List.flatten_cons] at hk_contents
    have hpiece := hcut _ (List.getElem_mem hk)
    obtain ⟨hread, -, hrest⟩ := read_of_cut hpiece hk_smooth hk_contents
    refine ⟨hread, ?_, decode_of_cut hpiece⟩
    rw [afterReads_succ, hrest, hk_contents]
  · obtain ⟨hend_smooth, hend⟩ := afterReads_of_cut hcut hsmooth hcontents le_rfl
    rw [List.drop_length, List.flatten_nil] at hend
    exact ⟨hend, read_of_contents_nil f hend_smooth hend⟩

/-- A body is damaged, and the packet behind it, which has no body, is read. -/
theorem reads_behind_damaged :
    let f : Framing := { crc := some .arc }
    let source : Source :=
      [.data [0, 5, 0xC0, 7, 0, 3, 0xAA, 0xBC], .data [0x13, 0x3F, 0, 5, 0xC0, 8, 0, 1, 2, 0xB0]]
    (read f source).1 = .error (.crcMismatch 0xD17E 0x133F) ∧
      (read f (afterReads f 1 source)).1 =
        .ok { header := { apid := 5, sequenceCount := 8 }, body := [] } ∧
      (read f (afterReads f 2 source)).1 = .error .connectionClosed := by
  intro f source
  have haltered : AreAltered f
      [{ header := { apid := 5, sequenceCount := 7 }, body := [0xAA, 0xBB] },
        { header := { apid := 5, sequenceCount := 8 }, body := [] }]
      [[0, 5, 0xC0, 7, 0, 3, 0xAA, 0xBC, 0x13, 0x3F], [0, 5, 0xC0, 8, 0, 1, 2, 0xB0]] :=
    .cons ⟨[0, 5, 0xC0, 7, 0, 3, 0xAA, 0xBB, 0x13, 0x3F], by decide +kernel, rfl, rfl⟩
      (.cons ⟨[0, 5, 0xC0, 8, 0, 1, 2, 0xB0], by decide +kernel, rfl, rfl⟩ .nil)
  have hsmooth : source.Smooth :=
    Source.smooth_cons.2 ⟨List.cons_ne_nil _ _, Source.smooth_cons.2 ⟨List.cons_ne_nil _ _,
      Source.smooth_nil⟩⟩
  obtain ⟨hreads, -, hclosed⟩ := reads_altered haltered hsmooth rfl
  refine ⟨?_, ?_, hclosed⟩
  · exact (hreads 0 (by decide)).1.trans (by decide +kernel)
  · exact (hreads 1 (by decide)).1.trans (by decide +kernel)

end Packet
end SpaceLink
