import SpaceLink.Proofs.Link.BusFailure
import SpaceLink.Proofs.Link.Repeating

/-! # What a link can send

A valid configuration leaves one reason to refuse a message: that it takes more frames than its
frames can count down. Such a message is refused before anything happens. Any other is drawn a
number, packed and kept, and goes on the bus frame by frame until the bus refuses one.
-/
namespace SpaceLink
open Fragmenter

namespace CanLink

/-- The message is cut under the next number of the link, and all of its frames are packed. -/
structure Cuts (link : CanLink) (body : Bytes) (fragments : List Fragment)
    (frames : List CanFrame) : Prop where
  fragments_eq : (link.fragmenter.fragment link.config.localNode link.config.peerNode body).1 =
    .ok fragments
  key_eq : ∀ f ∈ fragments, Reassembler.keyOf f.identifier = link.nextKey
  data_eq : fragments.flatMap (·.data) = body
  frames_eq : fragments.mapM (Fragment.toCan link.config.can.layout) = .ok frames
  drawn_eq : link.drawn body = { link with
    fragmenter := { link.fragmenter with transactions := link.fragmenter.transactions.next.2 } }

variable {config : CanLinkConfig} {link : CanLink} {body : Bytes} {frames : List CanFrame}

/-- A message of too many frames is refused before a number is drawn. -/
theorem Serves.fragment_of_maxFrames_lt (h : link.Serves config)
    (hlarge : config.can.layout.maxFrames < Pieces.count config.can.maxFrameData body.length) :
    link.fragmenter.fragment link.config.localNode link.config.peerNode body =
      (.error (.payloadTooLarge body.length (Pieces.count config.can.maxFrameData body.length)
        config.can.layout.maxFrames), link.fragmenter) := by
  simp only [fragment, framesFor, h.fragmenter.config_eq, if_pos hlarge]

theorem Serves.send_of_maxFrames_lt (h : link.Serves config) (hopen : link.closed = false)
    (hlarge : config.can.layout.maxFrames < Pieces.count config.can.maxFrameData body.length) :
    link.send body = (.error (.can (.payloadTooLarge body.length
      (Pieces.count config.can.maxFrameData body.length) config.can.layout.maxFrames)), link) := by
  rw [send, hopen, if_neg Bool.false_ne_true, CanLink.prepare, h.fragment_of_maxFrames_lt hlarge]

/-- Nothing else about a message fails: neither is there a field that it does not fit nor a frame
that holds too much. -/
theorem Serves.exists_cuts (h : link.Serves config)
    (hfits : Pieces.count config.can.maxFrameData body.length ≤ config.can.layout.maxFrames) :
    ∃ (fragments : List Fragment) (frames : List CanFrame), link.Cuts body fragments frames ∧
      frames.length = Pieces.count config.can.maxFrameData body.length ∧
      link.prepare body = (.ok frames,
        (link.drawn body).keep ⟨link.nextKey.transaction, config.peerNode, frames⟩) := by
  obtain ⟨t, frames, hsender, rfl, hsrc, hdst, hkey, hframes, hall⟩ := h.exists_transaction hfits
  have hcut := h.fragment_transaction hsender hsrc hdst
  have hafter : t.after = ⟨link.fragmenter.config, link.fragmenter.transactions.next.2⟩ := by
    rw [t.fragment_eq.2.2.2, hsender, h.fragmenter.config_eq]
  refine ⟨t.frames, frames, ⟨?_, ?_, t.data_frames, ?_, ?_⟩, ?_, ?_⟩
  · rw [hcut]
  · intro f hf
    obtain ⟨index, hindex⟩ := List.mem_iff_getElem?.1 hf
    rw [← hkey]
    exact Transaction.keyOf_frame hindex
  · rw [h.config_eq, hframes]
  · rw [drawn, hcut, hafter]
  · rw [← hall.length_eq, List.length_range, t.length_frames, Transaction.total]
  · rw [h.prepare_transaction hsender hsrc hdst hframes, drawn, hcut, hkey]
    rfl

/-- What a link has prepared goes on the bus up to the first frame that is refused. -/
theorem send_of_prepare {sender : CanLink} (hopen : link.closed = false)
    (hprepare : link.prepare body = (.ok frames, sender)) (hclosed : sender.closed = false) :
    (sender.bus.Takes frames.length ∧
      link.send body = (.ok (), { sender with bus := sender.bus.took frames })) ∨
    ∃ count < frames.length, ∃ error, sender.bus.Refuses count error ∧
      link.send body = (.error (.can error), { sender with
        closed := true
        bus := (sender.bus.took (frames.take count)).refused.shutdown }) := by
  have hsend : link.send body = sender.write frames := by
    simp [send, hopen, hprepare]
  rw [hsend, write]
  rcases sender.bus.takes_or_refuses frames.length with htakes | ⟨count, hcount, error, hrefuses⟩
  · rw [BusAccess.sendAll_of_takes htakes]
    exact .inl ⟨htakes, rfl⟩
  · refine .inr ⟨count, hcount, error, hrefuses, ?_⟩
    rw [BusAccess.sendAll_of_refuses hcount hrefuses]
    simp [shut, hclosed]

/-- Under a valid configuration an open link sends what its frames can count down. A longer message
is refused with its numbers and changes nothing. Any other takes one number, under which all of its
frames are packed and, if the link keeps any message, kept for its peer; they go on the bus in
order, and behind a frame that the bus refuses there is none. -/
theorem sends_up_to_capacity {config : CanLinkConfig} (hvalid : config.validate = .ok ())
    (bus : BusAccess) :
    ∃ start : CanLink, CanLink.open bus config = .ok start ∧
      ∀ (steps : List CanStep) (body : Bytes), (start.run steps).closed = false →
        let link := start.run steps
        let total := max 1 (body.length ⌈/⌉ config.can.maxFrameData)
        let limit := 2 ^ config.can.layout.remainBits
        (limit < total →
          link.send body = (.error (.can (.payloadTooLarge body.length total limit)), link)) ∧
        (total ≤ limit → ∃ (fragments : List Fragment) (frames : List CanFrame),
          link.Cuts body fragments frames ∧ frames.length = total ∧
          let kept :=
            (link.drawn body).keep ⟨link.nextKey.transaction, config.peerNode, frames⟩
          (1 ≤ config.resendCache →
            kept.cache.find? link.nextKey.transaction config.peerNode = some frames) ∧
          (config.resendCache = 0 → kept.cache = link.cache) ∧
          ((link.bus.Takes total ∧
              link.send body = (.ok (), { kept with bus := link.bus.took frames })) ∨
            ∃ count < total, ∃ error, link.bus.Refuses count error ∧
              link.send body = (.error (.can error), { kept with
                closed := true
                bus := (link.bus.took (frames.take count)).refused.shutdown }))) := by
  obtain ⟨start, hstart⟩ := exists_open (CanLinkConfig.validate_eq_ok.1 hvalid) bus
  refine ⟨start, hstart, fun steps body hopen => ?_⟩
  intro link total limit
  have hserves : link.Serves config := (open_eq_ok hstart).1.run steps
  have htotal : Pieces.count config.can.maxFrameData body.length = total :=
    Pieces.count_eq_ceilDiv _ _
  have hlimit : config.can.layout.maxFrames = limit := Layout.maxFrames_eq _
  constructor
  · intro hlarge
    rw [← htotal, ← hlimit] at hlarge ⊢
    exact hserves.send_of_maxFrames_lt hopen hlarge
  · intro hfits
    rw [← htotal, ← hlimit] at hfits
    obtain ⟨fragments, frames, hcuts, hlength, hprepare⟩ := hserves.exists_cuts hfits
    have hdepth : link.cache.depth = config.resendCache := hserves.cache_depth
    have hsend := send_of_prepare hopen hprepare hopen
    rw [hlength, htotal] at hsend
    refine ⟨fragments, frames, hcuts, hlength.trans htotal, ?_, ?_, hsend⟩
    · intro hkeeps
      have hne : link.cache.depth ≠ 0 := by omega
      exact ResendCache.find?_insert_self hne _
    · intro hzero
      exact if_pos (hdepth.trans hzero)

/-- Five bytes take three frames where two are the most, and are refused. Three bytes take two
frames, of which the bus refuses the second; the link keeps both. -/
theorem sends_within_two_frames :
    let config := CanLinkConfig.of 1 2 ⟨⟨7, 7, 2, 1, 5⟩, 2⟩
    config.validate = .ok () ∧ ∃ start : CanLink, CanLink.open (refusing 1) config = .ok start ∧
      start.closed = false ∧
      start.send [1, 2, 3, 4, 5] = (.error (.can (.payloadTooLarge 5 3 2)), start) ∧
      ∃ frames : List CanFrame, frames.length = 2 ∧
        (start.send [1, 2, 3]).1 = .error (.can (.transport (.io (.ofKind .brokenPipe)))) ∧
        (start.send [1, 2, 3]).2.closed = true ∧
        (start.send [1, 2, 3]).2.bus.sent = frames.take 1 ∧
        (start.send [1, 2, 3]).2.cache.find? start.nextKey.transaction 2 = some frames := by
  intro config
  have hvalid : config.validate = .ok () := rfl
  have hthree : max 1 (([1, 2, 3, 4, 5] : Bytes).length ⌈/⌉ config.can.maxFrameData) = 3 := by
    decide
  have htwo : max 1 (([1, 2, 3] : Bytes).length ⌈/⌉ config.can.maxFrameData) = 2 := by decide
  obtain ⟨start, hstart, hsends⟩ := sends_up_to_capacity hvalid (refusing 1)
  obtain ⟨-, hbus, -, hopen⟩ := open_eq_ok hstart
  have hlarge := (hsends [] [1, 2, 3, 4, 5] hopen).1 (by decide)
  obtain ⟨fragments, frames, -, hlength, hcached, -, hsent⟩ :=
    (hsends [] [1, 2, 3] hopen).2 (by decide)
  have hrun : start.run [] = start := rfl
  have hrefused : (refusing 1).answer ((refusing 1).calls + 1) =
      some (.transport (.io (.ofKind .brokenPipe))) := rfl
  rw [hthree] at hlarge
  rw [htwo] at hlength hsent
  simp only [hrun, hbus] at hsent
  refine ⟨hvalid, start, hstart, hopen, hlarge, frames, hlength, ?_⟩
  rcases hsent with ⟨htakes, -⟩ | ⟨count, hcount, error, ⟨-, herror⟩, hsend⟩
  · exact absurd ((htakes 1 (by decide)).symm.trans hrefused) (by simp)
  have hfirst : count ≠ 0 := by
    rintro rfl
    cases herror
  obtain rfl : count = 1 := by omega
  cases hrefused.symm.trans herror
  rw [hsend]
  exact ⟨rfl, rfl, rfl, hcached (by decide)⟩

/-- A link without room for a message sends it all the same and does not keep it. -/
theorem keeps_nothing_without_room :
    let config := { CanLinkConfig.of 1 2 (.classic .extended) with resendCache := 0 }
    config.validate = .ok () ∧
      max 1 (([1] : Bytes).length ⌈/⌉ config.can.maxFrameData) ≤ 2 ^ config.can.layout.remainBits ∧
      ∃ start : CanLink, CanLink.open {} config = .ok start ∧ start.closed = false ∧
        (start.send [1]).1 = .ok () ∧ (start.send [1]).2.bus.sent = [⟨4268032, [1]⟩] ∧
        (start.send [1]).2.cache.find? start.nextKey.transaction config.peerNode = none := by
  refine ⟨rfl, by decide, _, rfl, rfl, ?_, ?_, ?_⟩
  · rfl
  · decide +kernel
  · decide +kernel

end CanLink
end SpaceLink
