import SpaceLink.Proofs.Packet.Sections

/-! # Packets read back

A packet that can be framed has an encoding, and a reader takes exactly that encoding off a stream
and gives the packet as the wire holds it. `Writes` says of a step of a writer what `Takes` says of a
step of a reader, and the sections that a packet is written in are those that it is read in.
-/
namespace SpaceLink

theorem Framing.crcLength_lt (f : Framing) : f.crcLength < maxDataField := by
  rw [crcLength]
  split <;> decide

namespace Packet
open PacketReading

/-- What a reader makes of the encoding of a packet. -/
def received (f : Framing) (p : Packet) : Packet where
  header := p.header.onWire
  qualifier := if f.qualifierInMessage then p.qualifier else f.defaultQualifier
  body := p.body

/-- The body is within the limit, and body and checksum fit a data field. -/
structure Frameable (f : Framing) (p : Packet) : Prop where
  body_le : p.body.length ≤ f.effectiveMaxBody
  data_pos : 0 < p.body.length + f.crcLength
  data_le : p.body.length + f.crcLength ≤ Framing.maxDataField

def lead (f : Framing) (p : Packet) : Bytes :=
  if f.qualifierInMessage then Bytes.ofWord 2 p.qualifier.toNat else []

def rawHeader (f : Framing) (p : Packet) : Bytes :=
  p.header.toBytes (UInt16.ofNat (p.body.length + f.crcLength - 1))

def trailer (f : Framing) (p : Packet) : Bytes :=
  match f.crc with
  | some crc => Bytes.ofWord 2 (crc.checksum (p.rawHeader f) p.body).toNat
  | none => []

def wire (f : Framing) (p : Packet) : Bytes :=
  p.lead f ++ p.rawHeader f ++ p.body ++ p.trailer f

theorem length_lead (f : Framing) (p : Packet) : (p.lead f).length = f.qualifierLength := by
  rw [lead, Framing.qualifierLength]
  split_ifs
  · exact Bytes.length_ofWord 2 _
  · rfl

theorem length_trailer (f : Framing) (p : Packet) : (p.trailer f).length = f.crcLength := by
  rw [trailer, Framing.crcLength]
  cases f.crc with
  | none => rfl
  | some crc => exact Bytes.length_ofWord 2 _

theorem length_wire (f : Framing) (p : Packet) : (p.wire f).length = p.wireSize f := by
  have hheader : (p.rawHeader f).length = Header.size := Header.length_toBytes _ _
  simp only [wire, wireSize, List.length_append, length_lead, length_trailer, hheader]

theorem Frameable.not_unrepresentable {f : Framing} {p : Packet} (h : p.Frameable f) :
    ¬(p.body.length + f.crcLength = 0 ∨ Framing.maxDataField < p.body.length + f.crcLength) := by
  have hpos := h.data_pos
  have hle := h.data_le
  omega

end Packet

namespace PacketWriting
open Packet

/-- The step appends exactly `bytes`, whatever the buffer holds. -/
def Writes (step : PacketWriting) (bytes : Bytes) : Prop :=
  ∀ buffer : Gathered, ∃ after : Gathered,
    step buffer = (.ok (), after) ∧ after.bytes = buffer.bytes ++ bytes

theorem Writes.nil : Writes (pure ()) [] := fun buffer => ⟨buffer, rfl, by rw [List.append_nil]⟩

theorem writes_put (piece : Bytes) : Writes (put piece) piece :=
  fun buffer => ⟨buffer.append piece, rfl, Gathered.bytes_append buffer piece⟩

theorem Writes.append {step next : PacketWriting} {first second : Bytes}
    (hstep : Writes step first) (hnext : Writes next second) :
    Writes (step >>= fun _ => next) (first ++ second) := by
  intro buffer
  obtain ⟨middle, hrun, hmiddle⟩ := hstep buffer
  obtain ⟨after, hrun', hafter⟩ := hnext middle
  refine ⟨after, ?_, by rw [hafter, hmiddle, List.append_assoc]⟩
  simp only [bind, ExceptT.bind, ExceptT.mk, StateT.bind, hrun, ExceptT.bindCont]
  exact hrun'

theorem toBytes_of_writes {step : PacketWriting} {bytes : Bytes} (h : Writes step bytes) :
    step.toBytes = .ok bytes := by
  obtain ⟨after, hrun, hafter⟩ := h .empty
  simp only [toBytes, hrun, hafter, Gathered.bytes_empty, List.nil_append]

theorem writes_checksum (f : Framing) (p : Packet) :
    Writes (checksum f (p.rawHeader f) p.body) (p.trailer f) := by
  rw [checksum, trailer]
  cases f.crc with
  | none => exact .nil
  | some crc => exact writes_put _

theorem writes_packet {f : Framing} {p : Packet} (h : p.Frameable f) :
    Writes (packet f p) (p.wire f) := by
  rw [packet, if_neg (Nat.not_lt.2 h.body_le), if_neg h.not_unrepresentable, wire,
    List.append_assoc, List.append_assoc, lead]
  have hframed := (writes_put (p.rawHeader f)).append
    ((writes_put p.body).append (writes_checksum f p))
  by_cases hq : f.qualifierInMessage = true
  · simp only [if_pos hq]
    exact (writes_put _).append hframed
  · simp only [if_neg hq]
    exact hframed

theorem writes_forM {f : Framing} {ps : List Packet} (h : ∀ p ∈ ps, p.Frameable f) :
    Writes (ps.forM (packet f)) (ps.flatMap (wire f)) := by
  induction ps with
  | nil => exact .nil
  | cons p ps ih =>
    obtain ⟨hp, hps⟩ := List.forall_mem_cons.1 h
    exact (writes_packet hp).append (ih hps)

end PacketWriting

namespace Packet
open PacketReading

theorem encode_of_frameable {f : Framing} {p : Packet} (h : p.Frameable f) :
    p.encode f = .ok (p.wire f) :=
  PacketWriting.toBytes_of_writes (PacketWriting.writes_packet h)

theorem ofBytes_rawHeader (f : Framing) (p : Packet) :
    Header.ofBytes (p.rawHeader f) =
      (p.header.onWire, UInt16.ofNat (p.body.length + f.crcLength - 1)) :=
  Header.ofBytes_toBytes _ _

/-- The length field tells how long body and checksum are. -/
theorem toNat_lengthField {f : Framing} {p : Packet} (h : p.Frameable f) :
    (UInt16.ofNat (p.body.length + f.crcLength - 1)).toNat + 1 = p.body.length + f.crcLength := by
  have hpos := h.data_pos
  have hle := h.data_le
  rw [Framing.maxDataField] at hle
  rw [UInt16.toNat_ofNat', Nat.mod_eq_of_lt (by omega)]
  omega

/-- The cut of a packet's encoding. -/
def sections (f : Framing) (p : Packet) (h : p.Frameable f) : Sections f where
  lead := p.lead f
  header := p.rawHeader f
  body := p.body
  trailer := p.trailer f
  length_lead := p.length_lead f
  length_header := Header.length_toBytes _ _
  length_trailer := p.length_trailer f
  lengthField_eq := by rw [ofBytes_rawHeader, toNat_lengthField h]
  body_le := h.body_le

theorem bytes_sections {f : Framing} {p : Packet} (h : p.Frameable f) :
    (p.sections f h).bytes = p.wire f := by
  simp only [Sections.bytes, sections, wire, List.append_assoc]

theorem packet_sections {f : Framing} {p : Packet} (h : p.Frameable f) :
    (p.sections f h).packet = p.received f := by
  have hqualifier : qualifierOf f (p.lead f) = (p.received f).qualifier := by
    rw [qualifierOf, lead, received]
    split_ifs
    · exact Bytes.word_ofWord_uint16 _
    · rfl
  simp only [Sections.packet, sections, ofBytes_rawHeader, hqualifier]
  rfl

theorem compared_trailer (f : Framing) (p : Packet) :
    compared f (p.rawHeader f) p.body (p.trailer f) = .ok () := by
  rw [compared, trailer]
  cases f.crc with
  | none => rfl
  | some crc => exact if_pos (Bytes.word_ofWord_uint16 _).symm

theorem verdict_sections {f : Framing} {p : Packet} (h : p.Frameable f) :
    (p.sections f h).verdict = .ok (p.received f) := by
  have hcompared : compared f (p.sections f h).header (p.sections f h).body
      (p.sections f h).trailer = .ok () := compared_trailer f p
  rw [Sections.verdict, hcompared, packet_sections h]
  rfl

/-- A packet that can be framed is read back from the front of any smooth source. -/
theorem takes_wire {f : Framing} {p : Packet} (h : p.Frameable f) :
    Takes (PacketReading.packet f) (p.wire f) (.ok (p.received f)) := by
  rw [← bytes_sections h, ← verdict_sections h]
  exact (p.sections f h).takes_bytes

/-- At the end of a smooth source a reader finds the connection closed. -/
theorem read_of_contents_nil (f : Framing) {source : Source} (hsmooth : source.Smooth)
    (hcontents : source.contents = []) :
    (read f source).1 = .error .connectionClosed := by
  unfold read PacketReading.packet PacketReading.qualifier
  dsimp only
  by_cases hq : f.qualifierInMessage = true
  · have hlead : f.qualifierLength ≠ 0 := by
      simp [Framing.qualifierLength, Framing.qualifierSize, hq]
    obtain ⟨left, hread⟩ := exactly_of_contents_nil hsmooth hcontents f.qualifierLength hlead
    rw [if_pos hq, map_eq_pure_bind, bind_of_error (bind_of_error hread)]
  · have hlead : f.qualifierLength = 0 := by simp [Framing.qualifierLength, hq]
    obtain ⟨left, hread⟩ := exactly_of_contents_nil hsmooth hcontents (0 + Header.size)
      (show Header.size ≠ 0 by decide)
    rw [if_neg hq, pure_bind, hlead, bind_of_error hread]

/-- The packets are what a reader takes off the source until it finds the connection closed. -/
inductive ReadsAll (f : Framing) : Source → List Packet → Prop
  | closed {source : Source} :
      (read f source).1 = .error .connectionClosed → ReadsAll f source []
  | packet {source left : Source} {p : Packet} {ps : List Packet} :
      read f source = (.ok p, left) → ReadsAll f left ps → ReadsAll f source (p :: ps)

theorem readsAll_wires {f : Framing} {ps : List Packet} (h : ∀ p ∈ ps, p.Frameable f)
    {source : Source} (hsmooth : source.Smooth)
    (hcontents : source.contents = ps.flatMap (wire f)) :
    ReadsAll f source (ps.map (received f)) := by
  induction ps generalizing source with
  | nil => exact .closed (read_of_contents_nil f hsmooth hcontents)
  | cons p ps ih =>
    obtain ⟨hp, hps⟩ := List.forall_mem_cons.1 h
    rw [List.flatMap_cons] at hcontents
    obtain ⟨left, hread, hleft, hrest⟩ := takes_wire hp source _ hsmooth hcontents
    exact .packet hread (ih hps hleft hrest)

theorem encodeAll_of_frameable {f : Framing} {ps : List Packet} (h : ∀ p ∈ ps, p.Frameable f) :
    encodeAll f ps = .ok (ps.flatMap (wire f)) :=
  PacketWriting.toBytes_of_writes (PacketWriting.writes_forM h)

theorem writeAll_of_open {f : Framing} {ps : List Packet} (h : ∀ p ∈ ps, p.Frameable f)
    {sink : Sink} (hopen : sink.Open) :
    (writeAll f ps sink).1 = .ok () ∧
      (writeAll f ps sink).2.written = sink.written ++ ps.flatMap (wire f) ∧
      (writeAll f ps sink).2.Open := by
  obtain ⟨hresult, hwritten, hleft⟩ := Sink.send_of_open hopen (ps.flatMap (wire f))
  rw [writeAll, encodeAll_of_frameable h]
  exact ⟨by simp only [hresult]; rfl, hwritten, hleft⟩

end Packet
end SpaceLink
