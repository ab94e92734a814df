import SpaceLink.Proofs.Can.Fragmenter

/-! # What fragmentation makes of a payload

A payload is refused for its length, for its destination or for its source, looked at in this
order. Any other is cut into as few frames as hold it, under the next number of the counter.
-/
namespace SpaceLink

/-- The frames of one payload: full ones up to the last, which has the rest, and each with the number
of those behind it. -/
structure Fragmenter.CutsInto (config : CanConfig) (src dst : UInt32) (number : Nat)
    (payload : Bytes) (frames : List Fragment) : Prop where
  length_eq : frames.length = max 1 (payload.length ⌈/⌉ config.maxFrameData)
  route_eq : ∀ f ∈ frames, f.identifier.src = src ∧ f.identifier.dst = dst ∧
    f.identifier.transaction.toNat = number
  remain_eq : ∀ i f, frames[i]? = some f → f.identifier.remain.toNat = frames.length - 1 - i
  start_eq : ∀ f, frames[0]? = some f → f.identifier.frameType = .start
  last_eq : ∀ i f, frames[i]? = some f → 0 < i → i + 1 = frames.length →
    f.identifier.frameType = .last
  continuation_eq : ∀ i f, frames[i]? = some f → 0 < i → i + 1 < frames.length →
    f.identifier.frameType = .continuation
  full : ∀ i f, frames[i]? = some f → i + 1 < frames.length →
    f.data.length = config.maxFrameData
  rest : ∀ i f, frames[i]? = some f → i + 1 = frames.length →
    f.data.length = payload.length - i * config.maxFrameData ∧ (payload ≠ [] → f.data ≠ [])
  data_eq : frames.flatMap (·.data) = payload
  packs : ∀ f ∈ frames, ∃ frame : CanFrame, f.toCan config.layout = .ok frame

namespace Transaction
open Fragmenter

variable {config : CanConfig} (t : Transaction config)

theorem cutsInto : CutsInto config t.src t.dst t.number.toNat t.payload t.frames := by
  have hsize := t.serves.sound.frame_pos
  have hcount : t.frames.length = Pieces.count config.maxFrameData t.payload.length :=
    t.length_frames
  refine
    { length_eq := hcount.trans (Pieces.count_eq_ceilDiv _ _)
      route_eq := fun f hf => ?_
      remain_eq := fun i f hframe => ?_
      start_eq := fun f hframe => ?_
      last_eq := fun i f hframe hpos hlast => ?_
      continuation_eq := fun i f hframe hpos hlater => ?_
      full := fun i f hframe hlater => ?_
      rest := fun i f hframe hlast => ?_
      data_eq := t.data_frames
      packs := fun f hf => ?_ }
  · obtain ⟨i, hframe⟩ := List.mem_iff_getElem?.1 hf
    obtain ⟨hsrc, hdst, htransaction⟩ := route_frame hframe
    exact ⟨hsrc, hdst, by rw [htransaction, toNat_transaction]⟩
  · have hremain := remain_frame hframe
    omega
  · exact type_frame hframe
  · rw [type_frame hframe, typeFor, if_neg (Nat.ne_of_gt hpos), if_pos hlast]
  · rw [type_frame hframe, typeFor, if_neg (Nat.ne_of_gt hpos), if_neg (Nat.ne_of_lt hlater)]
  · obtain ⟨-, hpiece⟩ := t.frame_eq_piece hframe
    exact Pieces.length_of_succ_lt_count hsize hpiece (hcount ▸ hlater)
  · obtain ⟨-, hpiece⟩ := t.frame_eq_piece hframe
    exact ⟨Pieces.length_of_succ_eq_count hsize hpiece (hlast.trans hcount),
      fun hne => Pieces.ne_nil_of_mem_cut hsize hne (List.mem_of_getElem? hpiece)⟩
  · obtain ⟨i, hframe⟩ := List.mem_iff_getElem?.1 hf
    obtain ⟨frame, hpacked, -⟩ := ofCan_toCan hframe
    exact ⟨frame, hpacked⟩

end Transaction

namespace Fragmenter

/-- Why a payload is refused: it is too long for the count of frames, or else a node is too great
for its field. -/
def objection? (config : CanConfig) (src dst : UInt32) (length : Nat) : Option CanError :=
  let total := max 1 (length ⌈/⌉ config.maxFrameData)
  let limit := 2 ^ config.layout.remainBits
  if limit < total then some (.payloadTooLarge length total limit)
  else if 2 ^ config.layout.dstBits ≤ dst.toNat then
    some (.fieldOverflow "dst" dst.toNat config.layout.dstBits)
  else if 2 ^ config.layout.srcBits ≤ src.toNat then
    some (.fieldOverflow "src" src.toNat config.layout.srcBits)
  else none

variable {config : CanConfig} {src dst : UInt32} {f : Fragmenter} {payload : Bytes} {total : Nat}

theorem objection?_eq_none {length : Nat} : objection? config src dst length = none ↔
    max 1 (length ⌈/⌉ config.maxFrameData) ≤ 2 ^ config.layout.remainBits ∧
      src.toNat < 2 ^ config.layout.srcBits ∧ dst.toNat < 2 ^ config.layout.dstBits := by
  unfold objection?
  simp only
  split_ifs with hlength hdst hsrc
  · exact iff_of_false (by simp) fun h => Nat.not_le.2 hlength h.1
  · exact iff_of_false (by simp) fun h => Nat.not_le.2 h.2.2 hdst
  · exact iff_of_false (by simp) fun h => Nat.not_le.2 h.2.1 hsrc
  · exact iff_of_true rfl ⟨Nat.not_lt.1 hlength, Nat.not_le.1 hsrc, Nat.not_le.1 hdst⟩

theorem pack_start_of_dst (h : config.Sound) (htotal : total ≤ config.layout.maxFrames)
    (hdst : 2 ^ config.layout.dstBits ≤ dst.toNat) :
    config.layout.pack (startOf src dst total) =
      .error (.fieldOverflow "dst" dst.toNat config.layout.dstBits) := by
  obtain ⟨hremain, htype⟩ := h.fits_start htotal
  refine Layout.pack_of_too_wide h.layout (rfl : _ = [_, _, _] ++ (_, _, _) :: [_]) ?_
    (Nat.not_lt.2 hdst)
  simp only [List.forall_mem_cons]
  exact ⟨Nat.two_pow_pos _, hremain, htype, by simp⟩

theorem pack_start_of_src (h : config.Sound) (htotal : total ≤ config.layout.maxFrames)
    (hdst : dst.toNat < 2 ^ config.layout.dstBits)
    (hsrc : 2 ^ config.layout.srcBits ≤ src.toNat) :
    config.layout.pack (startOf src dst total) =
      .error (.fieldOverflow "src" src.toNat config.layout.srcBits) := by
  obtain ⟨hremain, htype⟩ := h.fits_start htotal
  refine Layout.pack_of_too_wide h.layout (rfl : _ = [_, _, _, _] ++ (_, _, _) :: []) ?_
    (Nat.not_lt.2 hsrc)
  simp only [List.forall_mem_cons]
  exact ⟨Nat.two_pow_pos _, hremain, htype, hdst, by simp⟩

/-- A payload is refused with the first objection there is, and then no number is drawn. -/
theorem Serves.fragment_of_objection (h : f.Serves config) {error : CanError}
    (herror : objection? config src dst payload.length = some error) :
    f.fragment src dst payload = (.error error, f) := by
  unfold objection? at herror
  simp only [← Pieces.count_eq_ceilDiv, ← Layout.maxFrames_eq config.layout] at herror
  unfold Fragmenter.fragment
  simp only [framesFor, h.config_eq]
  split_ifs at herror with hlength hdst hsrc
  · cases herror
    rw [if_pos hlength]
  · cases herror
    have hpack : config.layout.pack (startOf src dst _) = _ :=
      pack_start_of_dst h.sound (Nat.not_lt.1 hlength) hdst
    rw [startOf] at hpack
    simp only [if_neg hlength, hpack]
  · cases herror
    have hpack : config.layout.pack (startOf src dst _) = _ :=
      pack_start_of_src h.sound (Nat.not_lt.1 hlength) (Nat.not_le.1 hdst) hsrc
    rw [startOf] at hpack
    simp only [if_neg hlength, hpack]

theorem Serves.fragment_of_none (h : f.Serves config)
    (hnone : objection? config src dst payload.length = none) :
    ∃ frames : List Fragment, (f.fragment src dst payload).1 = .ok frames := by
  obtain ⟨hlength, hsrc, hdst⟩ := objection?_eq_none.1 hnone
  rw [← Pieces.count_eq_ceilDiv, ← Layout.maxFrames_eq] at hlength
  obtain ⟨raw, hpack⟩ := exists_pack_start h.sound hlength hdst hsrc
  rw [startOf] at hpack
  unfold Fragmenter.fragment
  simp only [framesFor, h.config_eq, if_neg (Nat.not_lt.2 hlength), hpack]
  exact ⟨_, rfl⟩

/-- Under a valid configuration and from any state of the counter a payload is cut unless there is
an objection. A refused one leaves the fragmenter as it was. Any other moves the counter by one, to
the number of all its frames. -/
theorem cuts_unless_objection (hvalid : config.validate = .ok ()) :
    ∃ start : Fragmenter, Fragmenter.of config = .ok start ∧
      ∀ counter : SequenceCounter, counter.wrap = start.transactions.wrap →
      ∀ (src dst : UInt32) (payload : Bytes),
        let before : Fragmenter := ⟨config, counter⟩
        let answer := (before.fragment src dst payload).1
        let after := (before.fragment src dst payload).2
        ((∃ frames, answer = .ok frames) ↔
          max 1 (payload.length ⌈/⌉ config.maxFrameData) ≤ 2 ^ config.layout.remainBits ∧
            src.toNat < 2 ^ config.layout.srcBits ∧ dst.toNat < 2 ^ config.layout.dstBits) ∧
        (∀ error, answer = .error error →
          objection? config src dst payload.length = some error ∧ after = before) ∧
        ∀ frames, answer = .ok frames →
          after = ⟨config, counter.next.2⟩ ∧
          counter.next.2.current.toNat =
            (counter.current.toNat + 1) % 2 ^ config.layout.transactionBits ∧
          CutsInto config src dst counter.next.2.current.toNat payload frames := by
  have hsound := CanConfig.validate_eq_ok.1 hvalid
  refine ⟨_, of_eq hsound, fun counter hwrap src dst payload => ?_⟩
  intro before answer after
  have hwrapped : counter.wrap.toNat = config.layout.transactionWrap := by
    rw [hwrap]
    exact hsound.toNat_wrap
  have hserves : before.Serves config := ⟨hsound, rfl, hwrapped⟩
  refine ⟨?_, fun error herror => ?_, fun frames hframes => ?_⟩
  · rw [← objection?_eq_none]
    constructor
    · rintro ⟨frames, hframes⟩
      rw [Option.eq_none_iff_forall_ne_some]
      intro error herror
      simp [answer, hserves.fragment_of_objection herror] at hframes
    · exact hserves.fragment_of_none
  · cases hobjection : objection? config src dst payload.length with
    | none =>
      obtain ⟨frames, hframes⟩ := hserves.fragment_of_none hobjection
      simp [answer, hframes] at herror
    | some reason =>
      have hrefused := hserves.fragment_of_objection hobjection
      simp only [answer, hrefused] at herror
      cases herror
      exact ⟨rfl, congrArg Prod.snd hrefused⟩
  · let t : Transaction config := ⟨before, src, dst, payload, frames, hserves, hframes⟩
    have hnumber : counter.next.2.current = t.number := SequenceCounter.current_next counter
    refine ⟨t.fragment_eq.2.2.2, ?_, ?_⟩
    · rw [hnumber, t.toNat_number, Layout.transactionWrap_eq]
    · rw [hnumber]
      exact t.cutsInto

/-- Behind number 30 of 32, three bytes in two frames, which are the most. Five bytes are too many
for them, whatever the nodes are, and of two nodes out of range the destination is named. -/
theorem cuts_three_bytes :
    let config : CanConfig := ⟨⟨7, 7, 2, 1, 5⟩, 2⟩
    let before : Fragmenter := ⟨config, ⟨32, 30, by decide⟩⟩
    config.validate = .ok () ∧
      (∃ frames : List Fragment, (before.fragment 1 2 [1, 2, 3]).1 = .ok frames ∧
        CutsInto config 1 2 31 [1, 2, 3] frames) ∧
      before.fragment 200 200 [1, 2, 3, 4, 5] = (.error (.payloadTooLarge 5 3 2), before) ∧
      before.fragment 200 200 [1] = (.error (.fieldOverflow "dst" 200 7), before) := by
  intro config before
  have hvalid : config.validate = .ok () := rfl
  obtain ⟨start, hstart, hall⟩ := cuts_unless_objection hvalid
  have hwrap : before.transactions.wrap = start.transactions.wrap := by
    rw [← Except.ok.inj hstart]
    rfl
  have hcut := hall before.transactions hwrap
  refine ⟨hvalid, ?_, ?_, ?_⟩
  · obtain ⟨frames, hframes⟩ := (hcut 1 2 [1, 2, 3]).1.2 (by decide)
    exact ⟨frames, hframes, ((hcut 1 2 [1, 2, 3]).2.2 frames hframes).2.2⟩
  · have hlong : (before.fragment 200 200 [1, 2, 3, 4, 5]).1 = .error (.payloadTooLarge 5 3 2) := by
      decide
    exact Prod.ext hlong ((hcut 200 200 [1, 2, 3, 4, 5]).2.1 _ hlong).2
  · have hfar : (before.fragment 200 200 [1]).1 = .error (.fieldOverflow "dst" 200 7) := by
      decide
    exact Prod.ext hfar ((hcut 200 200 [1]).2.1 _ hfar).2

end Fragmenter
end SpaceLink
