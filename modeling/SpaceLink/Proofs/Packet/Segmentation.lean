import SpaceLink.Proofs.Packet.Segmenter
import SpaceLink.Proofs.Run

/-! # What segmentation makes of a body

A body becomes as few packets as hold it. They carry the counts behind the one that the counter
stood at, and the counter then stands at the last of them, so the packets of bodies that are cut one
after the other are counted on.
-/
namespace SpaceLink

namespace Segmenter
open Desegmenter

/-- The packets of one body: full ones up to the last, which has the rest, counted from `last` on. -/
structure Splits (template : Header) (qualifier : UInt16) (size last : Nat) (body : Bytes)
    (packets : List Packet) : Prop where
  length_eq : packets.length = max 1 (body.length ⌈/⌉ size)
  full : ∀ i p, packets[i]? = some p → i + 1 < packets.length → p.body.length = size
  rest : ∀ i p, packets[i]? = some p → i + 1 = packets.length →
    p.body.length = body.length - i * size ∧ (body ≠ [] → p.body ≠ [])
  body_eq : packets.flatMap (·.body) = body
  count_eq : ∀ i p, packets[i]? = some p →
    p.header.sequenceCount.toNat = (last + 1 + i) % 16384
  unsegmented : ∀ p, packets = [p] → p.header.sequenceFlags = .unsegmented
  first_eq : ∀ p, packets[0]? = some p → 1 < packets.length → p.header.sequenceFlags = .first
  continuation_eq : ∀ i p, packets[i]? = some p → 0 < i → i + 1 < packets.length →
    p.header.sequenceFlags = .continuation
  last_eq : ∀ i p, packets[i]? = some p → 0 < i → i + 1 = packets.length →
    p.header.sequenceFlags = .last
  template_eq : ∀ p ∈ packets, p.qualifier = qualifier ∧ p.properties = [] ∧
    p.header = { template with
      sequenceFlags := p.header.sequenceFlags
      sequenceCount := p.header.sequenceCount }

variable {s : Segmenter} {body : Bytes}

/-- A packet of a body is one of its pieces, with its place in the body and in the count. -/
theorem getElem?_segment (h : s.Steady) (hbody : body.length < 2 ^ 63) {i : Nat} {p : Packet}
    (hp : (s.segment body).1[i]? = some p) : ∃ piece, (Pieces.cut s.maxBody body)[i]? = some piece ∧
      p = s.piecePacket (s.segment body).1.length i piece := by
  have hlength : (s.segment body).1.length = (Pieces.cut s.maxBody body).length := by
    rw [length_segment h hbody, Pieces.length_cut h.maxBody_pos]
  rw [hlength]
  rw [segment_eq h hbody, List.getElem?_mapIdx, Option.map_eq_some_iff] at hp
  obtain ⟨piece, hpiece, rfl⟩ := hp
  exact ⟨piece, hpiece, rfl⟩

theorem splits_segment (h : s.Steady) (hbody : body.length < 2 ^ 63) :
    Splits s.template s.qualifier s.maxBody s.counter.current.toNat body (s.segment body).1 := by
  have hsize := h.maxBody_pos
  have htotal := length_segment h hbody
  have hbodies := bodies_segment h (relays_id s) hbody
  rw [List.map_id] at hbodies
  have hflags : ∀ i p, (s.segment body).1[i]? = some p →
      p.header.sequenceFlags = flagsFor i (s.segment body).1.length := by
    intro i p hp
    obtain ⟨piece, -, rfl⟩ := getElem?_segment h hbody hp
    rfl
  refine
    { length_eq := htotal.trans (Pieces.count_eq_ceilDiv _ _)
      full := fun i p hp hlater => ?_
      rest := fun i p hp hlast => ?_
      body_eq := hbodies
      count_eq := fun i p hp => ?_
      unsegmented := fun p hp => ?_
      first_eq := fun p hp hmore => ?_
      continuation_eq := fun i p hp hpos hlater => ?_
      last_eq := fun i p hp hpos hlast => ?_
      template_eq := fun p hp => ?_ }
  · obtain ⟨piece, hpiece, rfl⟩ := getElem?_segment h hbody hp
    exact Pieces.length_of_succ_lt_count hsize hpiece (htotal ▸ hlater)
  · obtain ⟨piece, hpiece, rfl⟩ := getElem?_segment h hbody hp
    exact ⟨Pieces.length_of_succ_eq_count hsize hpiece (hlast.trans htotal),
      fun hne => Pieces.ne_nil_of_mem_cut hsize hne (List.mem_of_getElem? hpiece)⟩
  · obtain ⟨piece, -, rfl⟩ := getElem?_segment h hbody hp
    exact h.toNat_count i
  · have hfirst : (s.segment body).1[0]? = some p := by rw [hp]; rfl
    rw [hflags 0 p hfirst, hp]
    rfl
  · rw [hflags 0 p hp, flagsFor, if_neg (Nat.ne_of_gt hmore), if_pos rfl]
  · rw [hflags i p hp, flagsFor, if_neg (by omega), if_neg (Nat.ne_of_gt hpos),
      if_neg (Nat.ne_of_lt hlater)]
  · rw [hflags i p hp, flagsFor, if_neg (by omega), if_neg (Nat.ne_of_gt hpos), if_pos hlast]
  · obtain ⟨i, hi⟩ := List.mem_iff_getElem?.1 hp
    obtain ⟨piece, -, rfl⟩ := getElem?_segment h hbody hi
    exact ⟨rfl, rfl, rfl⟩

/-- The packets of bodies that are cut one after the other. -/
def packetsOf (s : Segmenter) (bodies : List Bytes) : List Packet :=
  (runLog segment s bodies).1.flatMap (·.2)

theorem packetsOf_cons (s : Segmenter) (body : Bytes) (bodies : List Bytes) :
    s.packetsOf (body :: bodies) = (s.segment body).1 ++ (s.segment body).2.packetsOf bodies := rfl

/-- Counts go on from one body to the next. -/
theorem counts_packetsOf (h : s.Steady) {bodies : List Bytes}
    (hbodies : ∀ body ∈ bodies, body.length < 2 ^ 63) :
    (∀ j p, (s.packetsOf bodies)[j]? = some p →
      p.header.sequenceCount.toNat = (s.counter.current.toNat + 1 + j) % 16384) ∧
    (runLog segment s bodies).2.counter.current.toNat =
      (s.counter.current.toNat + (s.packetsOf bodies).length) % 16384 := by
  induction bodies generalizing s with
  | nil =>
    have hcurrent := UInt64.lt_iff_toNat_lt.1 s.counter.current_lt
    rw [h.toNat_wrap] at hcurrent
    refine ⟨fun j p hp => by simp [packetsOf, runLog] at hp, ?_⟩
    exact (Nat.mod_eq_of_lt hcurrent).symm
  | cons body bodies ih =>
    obtain ⟨hbody, hrest⟩ := List.forall_mem_cons.1 hbodies
    have hcurrent := toNat_current_segment h hbody
    obtain ⟨hcounts, hlast⟩ := ih (h.segment body) hrest
    constructor
    · intro j p hp
      rw [packetsOf_cons] at hp
      by_cases hj : j < (s.segment body).1.length
      · rw [List.getElem?_append_left hj] at hp
        exact (splits_segment h hbody).count_eq j p hp
      · rw [List.getElem?_append_right (Nat.le_of_not_lt hj)] at hp
        rw [hcounts _ p hp, hcurrent]
        omega
    · rw [packetsOf_cons, List.length_append]
      have hlater : (runLog segment s (body :: bodies)).2 =
          (runLog segment (s.segment body).2 bodies).2 := rfl
      rw [hlater, hlast, hcurrent]
      omega

/-- A body that memory can hold is cut into pieces of the requested size, brought between one byte
and the longest data field. Its packets are as few as hold it, carry the counts behind that of the
counter and the header and qualifier that the segmenter was made with, and leave the counter at the
last of them. So over any number of bodies the counts go on without a gap. -/
theorem cuts_by_size (template : Header) (qualifier : UInt16) (requested : Nat)
    {counter : SequenceCounter} (hcounter : counter.wrap = Header.countWrap) :
    let s : Segmenter := { Segmenter.of template qualifier requested with counter := counter }
    let size := max 1 (min requested 65536)
    let last := counter.current.toNat
    (∀ body : Bytes, body.length < 2 ^ 63 →
      Splits template qualifier size last body (s.segment body).1 ∧
      ∃ after : SequenceCounter, (s.segment body).2 = { s with counter := after } ∧
        after.wrap = counter.wrap ∧
        after.current.toNat = (last + max 1 (body.length ⌈/⌉ size)) % 16384) ∧
    ∀ bodies : List Bytes, (∀ body ∈ bodies, body.length < 2 ^ 63) →
      (∀ j p, (s.packetsOf bodies)[j]? = some p →
        p.header.sequenceCount.toNat = (last + 1 + j) % 16384) ∧
      (runLog segment s bodies).2.counter.current.toNat =
        (last + (s.packetsOf bodies).length) % 16384 := by
  intro s size last
  have hsteady : s.Steady := steady_of template qualifier requested hcounter
  refine ⟨fun body hbody => ?_, fun bodies => counts_packetsOf hsteady⟩
  have hsplits := splits_segment hsteady hbody
  refine ⟨hsplits, _, rfl, rfl, ?_⟩
  have hcurrent := toNat_current_segment hsteady hbody
  rwa [hsplits.length_eq] at hcurrent

/-- A requested size of nothing gives pieces of one byte, and the counts of two bodies, one of which
is empty, go on past the wrap. -/
theorem cuts_past_wrap :
    let counter : SequenceCounter := .startingAt Header.countWrap 16382 (by decide)
    let s : Segmenter := { Segmenter.of (.telemetry 5 0) 7 0 with counter := counter }
    (s.packetsOf [[1, 2, 3], []]).map (fun p => (p.header.sequenceFlags, p.header.sequenceCount)) =
        [(.first, 16383), (.continuation, 0), (.last, 1), (.unsegmented, 2)] ∧
      Splits (.telemetry 5 0) 7 1 16382 [1, 2, 3] (s.segment [1, 2, 3]).1 ∧
      (runLog segment s [[1, 2, 3], []]).2.counter.current.toNat = 2 := by
  intro counter s
  obtain ⟨hone, hall⟩ :=
    cuts_by_size (.telemetry 5 0) 7 0 (show counter.wrap = Header.countWrap from rfl)
  have hbodies : ∀ body ∈ ([[1, 2, 3], []] : List Bytes), body.length < 2 ^ 63 := by decide
  have hlength : (s.packetsOf [[1, 2, 3], []]).length = 4 := by decide
  have hlast : counter.current.toNat = 16382 := by decide
  refine ⟨by decide, (hone [1, 2, 3] (by decide)).1, ?_⟩
  rw [(hall _ hbodies).2, hlength, hlast]

end Segmenter
end SpaceLink
