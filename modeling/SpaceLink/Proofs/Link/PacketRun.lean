import SpaceLink.Link.PacketLink
import SpaceLink.Proofs.Packet.Segmenter

/-! # The life of a packet link

A link that runs over a stream takes its steps in any order: messages are cut and written, packets
come in, received messages are taken, and the link is closed. Its configuration stays the valid one
it was given, and its segmenter is the one that belongs to it, at some count.
-/
namespace SpaceLink

namespace PacketLinkConfig

theorem validate_eq_ok {c : PacketLinkConfig} : c.validate = .ok () ↔
    c.apid ≤ Header.maxApid ∧ c.maxPacketBody ≠ 0 ∧ c.queueCapacity ≠ some 0 := by
  unfold validate checkQueue
  by_cases hapid : Header.maxApid < c.apid
  · rw [if_pos hapid]
    exact iff_of_false (fun h => by cases h) fun h => absurd hapid (UInt16.not_lt.2 h.1)
  · rw [if_neg hapid]
    by_cases hbody : c.maxPacketBody = 0
    · rw [if_pos hbody]
      exact iff_of_false (fun h => by cases h) fun h => absurd hbody h.2.1
    · rw [if_neg hbody]
      by_cases hqueue : c.queueCapacity = some 0
      · rw [if_pos hqueue]
        exact iff_of_false (fun h => by cases h) fun h => absurd hqueue h.2.2
      · rw [if_neg hqueue]
        exact iff_of_true rfl ⟨UInt16.not_lt.1 hapid, hbody, hqueue⟩

theorem isValid_headerTemplate {c : PacketLinkConfig} (h : c.validate = .ok ()) :
    c.headerTemplate.isValid = true := by
  obtain ⟨hapid, -, -⟩ := validate_eq_ok.1 h
  have hversion : (0 : UInt8) ≤ Header.maxVersion := by decide
  have hcount : (0 : UInt16) ≤ Header.maxSequenceCount := by decide
  simp only [Header.isValid, Bool.and_eq_true, decide_eq_true_eq]
  exact ⟨⟨hversion, hapid⟩, hcount⟩

/-- The segmenter of a link that starts. -/
def segmenter (c : PacketLinkConfig) : Segmenter :=
  .of c.headerTemplate c.qualifier c.effectivePacketBody

theorem sound_segmenter {c : PacketLinkConfig} (h : c.validate = .ok ()) : c.segmenter.Sound :=
  ⟨Nat.lt_of_lt_of_le Nat.one_pos (Nat.le_max_left _ _), rfl, isValid_headerTemplate h⟩

theorem maxBody_segmenter (c : PacketLinkConfig) : c.segmenter.maxBody =
    max 1 (min (min c.maxPacketBody c.framing.effectiveMaxBody)
      (Framing.maxDataField - c.framing.crcLength)) := by
  have hcrc := c.framing.crcLength_lt
  have hlimit : c.framing.effectiveMaxBody ≤ Framing.maxDataField := Nat.min_le_right _ _
  have hmaxBody : c.segmenter.maxBody =
      max 1 (min c.effectivePacketBody Framing.maxDataField) := rfl
  rw [hmaxBody, PacketLinkConfig.effectivePacketBody]
  omega

end PacketLinkConfig

inductive PacketStep where
  | cut (body : Bytes)
  | write (packets : List Packet)
  | hear (source : Source)
  | receive
  | close

namespace PacketLink

def step (link : PacketLink) : PacketStep → PacketLink
  | .cut body => (link.cut body).2
  | .write packets => (link.write packets).2
  | .hear source => (link.hear source).1
  | .receive => (Transport.receive? link).2
  | .close => link.shut

def run (link : PacketLink) (steps : List PacketStep) : PacketLink := steps.foldl step link

/-- What a link keeps of its configuration. -/
structure Serves (link : PacketLink) (config : PacketLinkConfig) : Prop where
  valid : config.validate = .ok ()
  config_eq : link.config = config
  segmenter_eq : ∃ counter : SequenceCounter, counter.wrap = Header.countWrap ∧
    link.segmenter =
      { Segmenter.of config.headerTemplate config.qualifier config.effectivePacketBody with
        counter := counter }

/-- A link over a stream has a valid configuration, and all else follows from that. -/
theorem ofStream_eq {sink : Sink} {localLabel peerLabel : String} {config : PacketLinkConfig}
    {link : PacketLink} (h : ofStream sink localLabel peerLabel config = .ok link) :
    config.validate = .ok () ∧ link = {
      config := config
      address := (PacketAddress.mk localLabel (some config.apid)).render
      peer := peerLabel
      segmenter := .of config.headerTemplate config.qualifier config.effectivePacketBody
      desegmenter := .of config.maxMessageSize
      sink := sink } := by
  rw [ofStream] at h
  cases hvalidate : config.validate with
  | error error => rw [hvalidate] at h; cases h
  | ok =>
    cases htimeout : (checkTimeout config.writeTimeout).mapError LinkError.transport with
    | error error => rw [hvalidate, htimeout] at h; cases h
    | ok =>
      rw [hvalidate, htimeout] at h
      cases h
      exact ⟨rfl, rfl⟩

theorem ofStream_eq_ok {sink : Sink} {localLabel peerLabel : String} {config : PacketLinkConfig}
    {link : PacketLink} (h : ofStream sink localLabel peerLabel config = .ok link) :
    config.validate = .ok () ∧ link.config = config ∧ link.sink = sink ∧
      link.segmenter = .of config.headerTemplate config.qualifier config.effectivePacketBody := by
  obtain ⟨hvalid, rfl⟩ := ofStream_eq h
  exact ⟨hvalid, rfl, rfl, rfl⟩

variable {config : PacketLinkConfig} {link : PacketLink}

theorem serves_ofStream {sink : Sink} {localLabel peerLabel : String}
    (h : ofStream sink localLabel peerLabel config = .ok link) : link.Serves config := by
  obtain ⟨hvalid, hconfig, -, hsegmenter⟩ := ofStream_eq_ok h
  exact ⟨hvalid, hconfig, .fresh Header.countWrap (by decide), rfl, hsegmenter⟩

/-- Steps that leave configuration and segmenter alone. -/
theorem Serves.of_eq (h : link.Serves config) {next : PacketLink}
    (hconfig : next.config = link.config) (hsegmenter : next.segmenter = link.segmenter) :
    next.Serves config :=
  ⟨h.valid, hconfig.trans h.config_eq, by rw [hsegmenter]; exact h.segmenter_eq⟩

theorem shut_settings (link : PacketLink) :
    link.shut.config = link.config ∧ link.shut.segmenter = link.segmenter := by
  rw [shut]
  split <;> exact ⟨rfl, rfl⟩

theorem write_settings (link : PacketLink) (packets : List Packet) :
    (link.write packets).2.config = link.config ∧
      (link.write packets).2.segmenter = link.segmenter := by
  rw [write]
  split
  · exact ⟨rfl, rfl⟩
  · exact shut_settings _

theorem hear_settings (link : PacketLink) (source : Source) :
    (link.hear source).1.config = link.config ∧
      (link.hear source).1.segmenter = link.segmenter := by
  rw [hear]
  split
  · simp only [acceptPacket]
    split <;> exact ⟨rfl, rfl⟩
  · exact ⟨rfl, rfl⟩
  · exact shut_settings link

theorem Serves.cut (h : link.Serves config) (body : Bytes) : (link.cut body).2.Serves config := by
  obtain ⟨counter, hwrap, hsegmenter⟩ := h.segmenter_eq
  refine ⟨h.valid, h.config_eq, (link.segmenter.segment body).2.counter, ?_, ?_⟩
  · rw [hsegmenter]
    exact hwrap
  · have hnew : (link.cut body).2.segmenter = (link.segmenter.segment body).2 := rfl
    rw [hnew, hsegmenter]
    rfl

theorem Serves.step (h : link.Serves config) (step : PacketStep) :
    (link.step step).Serves config := by
  cases step with
  | cut body => exact h.cut body
  | write packets => exact h.of_eq (write_settings link packets).1 (write_settings link packets).2
  | hear source => exact h.of_eq (hear_settings link source).1 (hear_settings link source).2
  | receive => exact h.of_eq rfl rfl
  | close => exact h.of_eq (shut_settings link).1 (shut_settings link).2

theorem Serves.run (h : link.Serves config) (steps : List PacketStep) :
    (link.run steps).Serves config := by
  induction steps generalizing link with
  | nil => exact h
  | cons step steps ih => exact ih (h.step step)

theorem Serves.sound (h : link.Serves config) : link.segmenter.Sound := by
  obtain ⟨counter, hwrap, hsegmenter⟩ := h.segmenter_eq
  rw [hsegmenter]
  exact (PacketLinkConfig.sound_segmenter h.valid).recount hwrap

theorem Serves.maxBody_eq (h : link.Serves config) : link.segmenter.maxBody =
    max 1 (min (min config.maxPacketBody config.framing.effectiveMaxBody)
      (Framing.maxDataField - config.framing.crcLength)) := by
  obtain ⟨counter, -, hsegmenter⟩ := h.segmenter_eq
  rw [hsegmenter]
  exact config.maxBody_segmenter

end PacketLink
end SpaceLink
