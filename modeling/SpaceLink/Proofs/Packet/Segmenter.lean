import SpaceLink.Packet.Segmenter
import SpaceLink.Proofs.Packet.Desegmenter
import SpaceLink.Proofs.Packet.Wire
import SpaceLink.Proofs.Pieces
import SpaceLink.Proofs.SequenceCounter

/-! # Whole messages cut

The packets that a segmenter cuts a body into carry the counts behind its counter, from whatever
count that is, and a reader sees one whole message in them.
-/
namespace SpaceLink

theorem Pieces.count_lt {size length : Nat} (hs : 0 < size) (h : length < 2 ^ 63) :
    count size length < 2 ^ 63 := by
  have hdiv : (length + size - 1) / size ≤ max 1 length := by
    rcases Nat.eq_zero_or_pos length with rfl | hpos
    · rw [Nat.zero_add, Nat.div_eq_of_lt (by omega)]
      omega
    · rw [Nat.div_le_iff_le_mul_add_pred hs]
      have hmul : length ≤ size * length := Nat.le_mul_of_pos_left length hs
      have hmax : size * length ≤ size * max 1 length :=
        Nat.mul_le_mul_left size (Nat.le_max_right _ _)
      omega
  rw [count]
  omega

namespace Segmenter
open Desegmenter

/-- What a segmenter keeps to: pieces of at least one byte, counts below the wrap, and headers whose
fields are within their widths. -/
structure Sound (s : Segmenter) : Prop where
  maxBody_pos : 0 < s.maxBody
  wrap_eq : s.counter.wrap = Header.countWrap
  template_valid : s.template.isValid = true

/-- What cutting and counting rest on, whatever stands in the template. -/
structure Steady (s : Segmenter) : Prop where
  maxBody_pos : 0 < s.maxBody
  wrap_eq : s.counter.wrap = Header.countWrap

theorem Sound.steady {s : Segmenter} (h : s.Sound) : s.Steady := ⟨h.maxBody_pos, h.wrap_eq⟩

theorem Sound.recount {s : Segmenter} (h : s.Sound) {counter : SequenceCounter}
    (hwrap : counter.wrap = s.counter.wrap) : { s with counter := counter }.Sound :=
  ⟨h.maxBody_pos, hwrap.trans h.wrap_eq, h.template_valid⟩

theorem Steady.toNat_wrap {s : Segmenter} (h : s.Steady) : s.counter.wrap.toNat = 16384 := by
  rw [h.wrap_eq]
  rfl

/-- Narrowed to the width of the field, a count is still the count. -/
theorem Steady.toNat_count {s : Segmenter} (h : s.Steady) (j : Nat) :
    (valueAfter s.counter.wrap s.counter.current j).toUInt16.toNat =
      (s.counter.current.toNat + 1 + j) % 16384 := by
  rw [UInt64.toNat_toUInt16, toNat_valueAfter _ _ s.counter.wrap_pos, h.toNat_wrap]
  omega

theorem Steady.segment {s : Segmenter} (h : s.Steady) (body : Bytes) : (s.segment body).2.Steady :=
  ⟨h.maxBody_pos, h.wrap_eq⟩

theorem steady_of (template : Header) (qualifier : UInt16) (maxBody : Nat)
    {counter : SequenceCounter} (h : counter.wrap = Header.countWrap) :
    { of template qualifier maxBody with counter := counter }.Steady :=
  ⟨Nat.lt_of_lt_of_le Nat.one_pos (Nat.le_max_left _ _), h⟩

def piecePacket (s : Segmenter) (total index : Nat) (piece : Bytes) : Packet :=
  s.packetFor total index (valueAfter s.counter.wrap s.counter.current index) piece

theorem segment_eq {s : Segmenter} (h : s.Steady) {body : Bytes} (hbody : body.length < 2 ^ 63) :
    (s.segment body).1 = (Pieces.cut s.maxBody body).mapIdx
      (s.piecePacket (Pieces.cut s.maxBody body).length) := by
  have hlength := Pieces.length_cut h.maxBody_pos body
  have hcount := Pieces.count_lt h.maxBody_pos hbody
  rw [← hlength] at hcount
  rw [segment, ← hlength]
  simp only [SequenceCounter.toList_increment _ hcount]
  apply List.ext_getElem
  · simp
  · intro i _ _
    simp [piecePacket]

theorem length_segment {s : Segmenter} (h : s.Steady) {body : Bytes} (hbody : body.length < 2 ^ 63) :
    (s.segment body).1.length = Pieces.count s.maxBody body.length := by
  rw [segment_eq h hbody, List.length_mapIdx, Pieces.length_cut h.maxBody_pos]

/-- The counter then stands at the count of the last packet. -/
theorem toNat_current_segment {s : Segmenter} (h : s.Steady) {body : Bytes}
    (hbody : body.length < 2 ^ 63) :
    (s.segment body).2.counter.current.toNat =
      (s.counter.current.toNat + (s.segment body).1.length) % 16384 := by
  rw [length_segment h hbody, ← h.toNat_wrap]
  exact s.counter.toNat_current_increment (Pieces.count_lt h.maxBody_pos hbody)

theorem map_segment {s : Segmenter} (h : s.Steady) {body : Bytes} (hbody : body.length < 2 ^ 63)
    {α : Type} (g : Packet → α) :
    (s.segment body).1.map g = (Pieces.cut s.maxBody body).mapIdx fun i piece =>
      g (s.piecePacket (Pieces.cut s.maxBody body).length i piece) := by
  rw [segment_eq h hbody]
  apply List.ext_getElem
  · simp
  · intro i _ _
    simp

/-- A packet of a sound segmenter is on the wire as it is. -/
theorem isValid_packetFor {s : Segmenter} (h : s.Sound) (total index : Nat) {count : UInt64}
    (hcount : count < Header.countWrap) (piece : Bytes) :
    (s.packetFor total index count piece).header.isValid = true := by
  have hvalid := h.template_valid
  have hle : count.toUInt16 ≤ Header.maxSequenceCount := by
    rw [UInt64.lt_iff_toNat_lt] at hcount
    rw [UInt16.le_iff_toNat_le, UInt64.toNat_toUInt16]
    exact Nat.le_trans (Nat.mod_le _ _) (Nat.le_of_lt_succ hcount)
  simp only [Header.isValid, Bool.and_eq_true, decide_eq_true_eq] at hvalid ⊢
  exact ⟨hvalid.1, hle⟩

theorem isValid_piecePacket {s : Segmenter} (h : s.Sound) (total index : Nat) (piece : Bytes) :
    (s.piecePacket total index piece).header.isValid = true := by
  apply isValid_packetFor h
  rw [h.wrap_eq]
  exact valueAfter_lt _ (by decide) _

/-- A packet of a body holds one of its pieces and a count of the counter, however long the body
is. -/
theorem exists_of_mem_segment {s : Segmenter} {body : Bytes} {p : Packet}
    (hp : p ∈ (s.segment body).1) :
    ∃ (total index : Nat) (count : UInt64) (piece : Bytes), count < s.counter.wrap ∧
      piece ∈ Pieces.cut s.maxBody body ∧ p = s.packetFor total index count piece := by
  unfold segment at hp
  obtain ⟨index, hindex, rfl⟩ := List.mem_mapIdx.1 hp
  obtain ⟨hcount, hpiece⟩ := List.of_mem_zip (List.getElem_mem hindex)
  exact ⟨_, _, _, _, s.counter.lt_wrap_of_mem_increment _ hcount, hpiece, rfl⟩

theorem isValid_of_mem_segment {s : Segmenter} (h : s.Sound) {body : Bytes} {p : Packet}
    (hp : p ∈ (s.segment body).1) : p.header.isValid = true := by
  obtain ⟨total, index, count, piece, hcount, -, rfl⟩ := exists_of_mem_segment hp
  rw [h.wrap_eq] at hcount
  exact isValid_packetFor h total index hcount piece

theorem body_mem_cut {s : Segmenter} {body : Bytes} {p : Packet} (hp : p ∈ (s.segment body).1) :
    p.body ∈ Pieces.cut s.maxBody body := by
  obtain ⟨total, index, count, piece, -, hpiece, rfl⟩ := exists_of_mem_segment hp
  exact hpiece

/-- The counts of neighbouring pieces follow each other, past the wrap as well. -/
theorem nextCount_valueAfter {wrap : UInt64} (h : wrap = Header.countWrap) (last : UInt64)
    (j : Nat) :
    nextCount (valueAfter wrap last j).toUInt16 = (valueAfter wrap last (j + 1)).toUInt16 := by
  subst h
  have hwrap : Header.countWrap.toNat = 16384 := rfl
  apply UInt16.toNat_inj.1
  rw [nextCount, UInt64.toNat_toUInt16, UInt64.toNat_toUInt16, UInt64.toNat_mod, UInt64.toNat_add,
    UInt16.toNat_toUInt64, UInt64.toNat_toUInt16, toNat_valueAfter _ _ (by decide),
    toNat_valueAfter _ _ (by decide), hwrap, UInt64.toNat_one]
  omega

theorem received_piecePacket {s : Segmenter} (h : s.Sound) (f : Framing) (total index : Nat)
    (piece : Bytes) :
    (s.piecePacket total index piece).received f = { s.piecePacket total index piece with
      qualifier := if f.qualifierInMessage then s.qualifier else f.defaultQualifier } := by
  rw [Packet.received, Header.onWire_of_isValid (isValid_piecePacket h _ _ _)]
  rfl

/-- What a reader files the packets of a segmenter under. -/
def keyAt (s : Segmenter) (f : Framing) : ApplicationKey :=
  (if f.qualifierInMessage then s.qualifier else f.defaultQualifier, s.template.apid)

/-- A view of the packets that shows their flags, counts and bodies, and files them under one
key. -/
structure Relays (s : Segmenter) (view : Packet → Packet) (key : ApplicationKey) : Prop where
  keyOf_eq : ∀ total index piece, keyOf (view (s.piecePacket total index piece)) = key
  flags_eq : ∀ total index piece,
    (view (s.piecePacket total index piece)).header.sequenceFlags = flagsFor index total
  count_eq : ∀ total index piece, (view (s.piecePacket total index piece)).header.sequenceCount =
    (valueAfter s.counter.wrap s.counter.current index).toUInt16
  body_eq : ∀ total index piece, (view (s.piecePacket total index piece)).body = piece

theorem relays_received {s : Segmenter} (h : s.Sound) (f : Framing) :
    s.Relays (Packet.received f) (s.keyAt f) := by
  constructor <;> intro total index piece <;> rw [received_piecePacket h] <;> rfl

/-- What the packets of a segmenter are filed under as they are cut. -/
def key (s : Segmenter) : ApplicationKey := (s.qualifier, s.template.apid)

theorem relays_id (s : Segmenter) : s.Relays id s.key :=
  ⟨fun _ _ _ => rfl, fun _ _ _ => rfl, fun _ _ _ => rfl, fun _ _ _ => rfl⟩

section Relays
variable {s : Segmenter} {view : Packet → Packet} {key : ApplicationKey}

/-- The pieces behind the first carry the message on and end it. -/
theorem completes_pieces (h : s.Steady) (hview : s.Relays view key) {total index : Nat}
    {pieces : List Bytes} (hne : pieces ≠ []) (htotal : index + 1 + pieces.length = total) :
    Completes key (valueAfter s.counter.wrap s.counter.current index).toUInt16
      (pieces.mapIdx fun i piece => view (s.piecePacket total (index + 1 + i) piece)) := by
  induction pieces generalizing index with
  | nil => exact absurd rfl hne
  | cons piece rest ih =>
    have hkey := hview.keyOf_eq total (index + 1) piece
    have hcount := hview.count_eq total (index + 1) piece
    have hflags := hview.flags_eq total (index + 1) piece
    rw [← nextCount_valueAfter h.wrap_eq] at hcount
    rw [List.length_cons] at htotal
    rw [List.mapIdx_cons]
    by_cases hrest : rest = []
    · subst hrest
      have hlast : index + 1 + 1 = total := by simpa using htotal
      refine .last hkey ?_ hcount
      rw [Nat.add_zero, hflags, flagsFor, if_neg (by omega), if_neg (by omega), if_pos hlast]
    · have hpos := List.length_pos_iff.2 hrest
      refine .continuation hkey ?_ hcount ?_
      · rw [Nat.add_zero, hflags, flagsFor, if_neg (by omega), if_neg (by omega),
          if_neg (by omega)]
      · have hlater := ih hrest (show index + 1 + 1 + rest.length = total by omega)
        have hindex : ∀ i : Nat, index + 1 + 1 + i = index + 1 + (i + 1) := by omega
        rw [hview.count_eq]
        simpa only [hindex] using hlater

/-- A reader sees one whole message in the packets of a body. -/
theorem isWhole_segment (h : s.Steady) (hview : s.Relays view key) {body : Bytes}
    (hbody : body.length < 2 ^ 63) : IsWhole key ((s.segment body).1.map view) := by
  rw [map_segment h hbody]
  have hpos : 0 < (Pieces.cut s.maxBody body).length := by
    rw [Pieces.length_cut h.maxBody_pos]
    exact Pieces.count_pos _ _
  cases hcut : Pieces.cut s.maxBody body with
  | nil => simp [hcut] at hpos
  | cons piece rest =>
    have hkey := hview.keyOf_eq (piece :: rest).length 0 piece
    have hflags := hview.flags_eq (piece :: rest).length 0 piece
    rw [List.mapIdx_cons]
    by_cases hrest : rest = []
    · subst hrest
      exact .unsegmented hkey hflags
    · have hlater := List.length_pos_iff.2 hrest
      refine .segmented hkey ?_ ?_
      · rw [hflags, flagsFor, List.length_cons, if_neg (by omega), if_pos rfl]
      · have hcompletes := completes_pieces h hview hrest
          (show 0 + 1 + rest.length = (piece :: rest).length by
            rw [List.length_cons]
            omega)
        have hindex : ∀ i : Nat, 0 + 1 + i = i + 1 := by omega
        rw [hview.count_eq]
        simpa only [hindex] using hcompletes

theorem bodies_segment (h : s.Steady) (hview : s.Relays view key) {body : Bytes}
    (hbody : body.length < 2 ^ 63) : bodies ((s.segment body).1.map view) = body := by
  have hpieces : (s.segment body).1.map (fun p => (view p).body) = Pieces.cut s.maxBody body := by
    rw [map_segment h hbody]
    apply List.ext_getElem
    · simp
    · intro i _ _
      simp [hview.body_eq]
  rw [bodies, List.flatMap_map, List.flatMap_def, hpieces, Pieces.flatten_cut]

end Relays

/-- The first packet takes what it can of the body. -/
theorem exists_segment_eq_cons {s : Segmenter} (h : s.Steady) {body : Bytes}
    (hbody : body.length < 2 ^ 63) : ∃ (p : Packet) (later : List Packet),
      (s.segment body).1 = p :: later ∧ p.body = body.take s.maxBody := by
  have hcount : Pieces.count s.maxBody body.length - 1 + 1 = Pieces.count s.maxBody body.length :=
    Nat.sub_add_cancel (Pieces.count_pos _ _)
  rw [segment_eq h hbody, Pieces.cut_eq_map h.maxBody_pos, ← hcount, List.range_succ_eq_map,
    List.map_cons, List.mapIdx_cons]
  exact ⟨_, _, rfl, by simp [piecePacket, packetFor]⟩

theorem frameable_of_mem_segment {s : Segmenter} (h : s.Sound) {f : Framing} {body : Bytes}
    (hmax : min s.maxBody body.length ≤ f.effectiveMaxBody)
    (hdata : s.maxBody + f.crcLength ≤ Framing.maxDataField)
    (hdatum : body ≠ [] ∨ f.crc.isSome = true) {p : Packet} (hp : p ∈ (s.segment body).1) :
    p.Frameable f := by
  have hmem := body_mem_cut hp
  have hle := Pieces.length_le_of_mem_cut h.maxBody_pos hmem
  have hpos : 0 < p.body.length + f.crcLength := by
    rcases hdatum with hne | hcrc
    · have hpiece := List.length_pos_iff.2 (Pieces.ne_nil_of_mem_cut h.maxBody_pos hne hmem)
      omega
    · rw [Framing.crcLength, if_pos hcrc]
      exact Nat.lt_of_lt_of_le (by decide) (Nat.le_add_left _ _)
  have hsize := Nat.le_trans hle (Nat.min_le_left _ _)
  exact ⟨Nat.le_trans hle hmax, hpos, Nat.le_trans (Nat.add_le_add_right hsize _) hdata⟩

/-- What a segmenter cuts, a desegmenter joins, whatever count comes first and whatever the
desegmenter held before. -/
theorem acceptAll_segment {s : Segmenter} (h : s.Sound) (f : Framing) {body : Bytes}
    (hbody : body.length < 2 ^ 63) (d : Desegmenter) (hsize : body.length ≤ d.maxMessageSize) :
    ∃ m : Packet, d.acceptAll ((s.segment body).1.map (Packet.received f)) =
        (List.replicate ((s.segment body).1.length - 1) (.ok none) ++ [.ok (some m)],
          d.forget (s.keyAt f)) ∧
      keyOf m = s.keyAt f ∧ m.body = body := by
  have hwhole := isWhole_segment h.steady (relays_received h f) hbody
  have hbodies := bodies_segment h.steady (relays_received h f) hbody
  have hlength : (s.segment body).1.length = ((s.segment body).1.map (Packet.received f)).length :=
    (List.length_map _).symm
  rw [hlength]
  cases hpackets : (s.segment body).1.map (Packet.received f) with
  | nil =>
    rw [hpackets] at hwhole
    cases hwhole
  | cons p rest =>
    rw [hpackets] at hwhole hbodies
    have hkey : keyOf p = s.keyAt f := by cases hwhole <;> assumption
    refine ⟨joined p body, ?_, hkey, rfl⟩
    rw [acceptAll_whole d hwhole (by rw [hbodies]; exact hsize), hbodies, List.length_cons,
      Nat.add_sub_cancel]

end Segmenter
end SpaceLink
