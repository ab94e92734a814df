import SpaceLink.Proofs.Link.PacketRun
import SpaceLink.Proofs.Packet.Bijection

/-! # Bodies that go into packets, and bodies that do not

A data field holds a byte at least, so an empty body needs a checksum beside it, and any other body
needs a framing with room for one byte. With that a valid configuration frames every body, however
it is cut. Without it the batch is refused before anything is written, and the link closes all the
same: its sender then loses every later message.
-/
namespace SpaceLink

/-- The framing has something to put into a packet for the body, and room for it. -/
structure Framing.Carries (f : Framing) (body : Bytes) : Prop where
  datum : body ≠ [] ∨ f.crc.isSome = true
  room : body = [] ∨ 1 ≤ f.maxBodySize

/-- The error for a body that is not carried. -/
def objection (body : Bytes) : PacketError :=
  if body = [] then .bodyUnrepresentable 0 0 else .bodyTooLarge 1 0

namespace PacketLinkConfig

variable {config : PacketLinkConfig} {counter : SequenceCounter} {body : Bytes}

/-- Whatever count a link stands at, the packets of a body that is carried can be framed. -/
theorem frameable_of_carries (hvalid : config.validate = .ok ())
    (hcounter : counter.wrap = Header.countWrap) (hbody : config.framing.Carries body) {p : Packet}
    (hp : p ∈ ({ config.segmenter with counter := counter }.segment body).1) :
    p.Frameable config.framing := by
  have hsize := config.maxBody_segmenter
  have hlimit := config.framing.crcLength_lt
  apply Segmenter.frameable_of_mem_segment ((sound_segmenter hvalid).recount hcounter) ?_ ?_
    hbody.datum hp
  · rcases hbody.room with rfl | hroom
    · simp
    · have hpos : 1 ≤ config.framing.effectiveMaxBody := Nat.le_min.2 ⟨hroom, by decide⟩
      dsimp only
      omega
  · dsimp only
    omega

/-- Every packet of a body that is not carried is refused, for the same reason. -/
theorem encode_of_not_carries (hbody : ¬config.framing.Carries body) {p : Packet}
    (hp : p ∈ ({ config.segmenter with counter := counter }.segment body).1) :
    p.encode config.framing = .error (objection body) := by
  have hsize := config.maxBody_segmenter
  have hpos : 0 < config.segmenter.maxBody := by omega
  have hmem := Segmenter.body_mem_cut hp
  dsimp only at hmem
  have hle := Pieces.length_le_of_mem_cut hpos hmem
  by_cases hempty : body = []
  · subst hempty
    have hcrc : config.framing.crc.isSome = false := by
      rw [Bool.eq_false_iff]
      intro hsome
      exact hbody ⟨.inr hsome, .inl rfl⟩
    have hp : p.body = [] := by simpa using hle
    have hunrepresentable := PacketWriting.packet_of_unrepresentable (f := config.framing) (p := p)
      (by simp [hp]) (by simp [hp, Framing.crcLength, hcrc]) .empty
    simp [Packet.encode, PacketWriting.toBytes, hunrepresentable, objection, hp, Framing.crcLength,
      hcrc]
  · have hroom : config.framing.maxBodySize = 0 := by
      by_contra hne
      exact hbody ⟨.inl hempty, .inr (Nat.one_le_iff_ne_zero.2 hne)⟩
    have heffective : config.framing.effectiveMaxBody = 0 := by
      simp [Framing.effectiveMaxBody, hroom]
    have hp : p.body.length = 1 := by
      have hpiece := List.length_pos_iff.2 (Pieces.ne_nil_of_mem_cut hpos hempty hmem)
      omega
    have hlarge := PacketWriting.packet_of_too_large (f := config.framing) (p := p)
      (by rw [heffective, hp]; decide) .empty
    simp [Packet.encode, PacketWriting.toBytes, hlarge, objection, hempty, hp, heffective]

/-- At whatever count a link with a valid configuration stands, it cuts a body into packets with
valid headers. If the framing has room for a byte, all packets of a body with something in it can be
framed; if not, none can. -/
theorem frames_cut_bodies (hvalid : config.validate = .ok ())
    (hcounter : counter.wrap = Header.countWrap) (hbody : body ≠ []) :
    let packets := ({ config.segmenter with counter := counter }.segment body).1
    (∀ p ∈ packets, p.header.isValid = true) ∧
    (1 ≤ config.framing.maxBodySize →
      (∀ p ∈ packets, ∃ wire : Bytes,
        p.encode config.framing = .ok wire ∧ wire.length = p.wireSize config.framing) ∧
      ∃ wire : Bytes, Packet.encodeAll config.framing packets = .ok wire) ∧
    (config.framing.maxBodySize = 0 →
      ∀ p ∈ packets, p.encode config.framing = .error (.bodyTooLarge 1 0)) ∧
    (body.length < 2 ^ 63 → packets.flatMap (·.body) = body) := by
  have hsound := (sound_segmenter hvalid).recount hcounter
  intro packets
  refine ⟨?_, ?_, ?_, ?_⟩
  · intro p hp
    exact Segmenter.isValid_of_mem_segment hsound hp
  · intro hroom
    have hframeable : ∀ p ∈ packets, p.Frameable config.framing := by
      intro p hp
      exact frameable_of_carries hvalid hcounter ⟨.inl hbody, .inr hroom⟩ hp
    constructor
    · intro p hp
      exact ⟨p.wire config.framing, Packet.encode_of_frameable (hframeable p hp), p.length_wire _⟩
    · exact ⟨_, Packet.encodeAll_of_frameable hframeable⟩
  · intro hroom p hp
    have hcarries : ¬config.framing.Carries body := by
      rintro ⟨-, hempty | hpos⟩
      · exact hbody hempty
      · omega
    rw [encode_of_not_carries hcarries hp, objection, if_neg hbody]
  · intro hlength
    have hbodies := Segmenter.bodies_segment hsound.steady (Segmenter.relays_id _) hlength
    rwa [List.map_id] at hbodies

/-- Three pieces with their checksums, the last of which is counted behind the wrap. -/
theorem frames_past_wrap :
    let config : PacketLinkConfig := {
      apid := 2047, maxPacketBody := 9, framing := { crc := some .kermit, maxBodySize := 2 } }
    let counter := SequenceCounter.startingAt Header.countWrap 16381 (by decide)
    config.validate = .ok () ∧ ∃ wire : Bytes, Packet.encodeAll config.framing
      ({ config.segmenter with counter := counter }.segment [1, 2, 3, 4, 5]).1 = .ok wire := by
  intro config counter
  have hvalid : config.validate = .ok () := by rfl
  have hcounter : counter.wrap = Header.countWrap := rfl
  obtain ⟨-, hframed, -⟩ := frames_cut_bodies hvalid hcounter (List.cons_ne_nil 1 [2, 3, 4, 5])
  exact ⟨hvalid, (hframed (by decide)).2⟩

/-- A valid configuration whose framing takes no byte: a link that starts with it can send nothing
but empty bodies. -/
theorem refuses_without_room :
    let config : PacketLinkConfig := { framing := { maxBodySize := 0 } }
    config.validate = .ok () ∧ ∃ p : Packet, (config.segmenter.segment [1]).1 = [p] ∧
      p.encode config.framing = .error (.bodyTooLarge 1 0) :=
  ⟨rfl, _, rfl, rfl⟩

end PacketLinkConfig

namespace PacketLink

variable {config : PacketLinkConfig} {link : PacketLink} {body : Bytes}

theorem Serves.encodeAll_of_carries (h : link.Serves config) (hbody : config.framing.Carries body) :
    ∃ wire : Bytes, Packet.encodeAll config.framing (link.cut body).1 = .ok wire := by
  obtain ⟨counter, hcounter, hsegmenter⟩ := h.segmenter_eq
  refine ⟨_, Packet.encodeAll_of_frameable ?_⟩
  intro p hp
  apply PacketLinkConfig.frameable_of_carries h.valid hcounter hbody
  rw [PacketLink.cut, hsegmenter] at hp
  exact hp

theorem Serves.encodeAll_of_not_carries (h : link.Serves config)
    (hbody : ¬config.framing.Carries body) (hlength : body.length < 2 ^ 63) :
    Packet.encodeAll config.framing (link.cut body).1 = .error (objection body) := by
  obtain ⟨counter, -, hsegmenter⟩ := h.segmenter_eq
  obtain ⟨p, later, hpackets, -⟩ := Segmenter.exists_segment_eq_cons h.sound.steady hlength
  have hcut : (link.cut body).1 = [] ++ p :: later := hpackets
  have hp : p ∈ (link.segmenter.segment body).1 := by simp [hpackets]
  rw [hcut]
  apply PacketWriting.encodeAll_of_encode_eq_error (by simp)
  rw [hsegmenter] at hp
  exact PacketLinkConfig.encode_of_not_carries hbody hp

theorem write_of_encodeAll_eq_ok {packets : List Packet} {wire : Bytes}
    (hopen : link.closed = false)
    (h : Packet.encodeAll link.config.framing packets = .ok wire) :
    (link.write packets).1 =
        (link.sink.send wire).1.mapError (fun error => .packet (.ofSink error)) ∧
      (link.write packets).2.sink = (link.sink.send wire).2 ∧
      ((link.write packets).2.closed = true ↔
        ∃ error : SinkError, (link.sink.send wire).1 = .error error) := by
  rw [write, Packet.writeAll, h]
  cases hsend : link.sink.send wire with
  | mk result sink =>
    cases result with
    | ok => simp [hsend, hopen, Except.mapError]
    | error error => simp [hsend, hopen, Except.mapError, shut]

theorem write_of_encodeAll_eq_error {packets : List Packet} {error : PacketError}
    (hopen : link.closed = false)
    (h : Packet.encodeAll link.config.framing packets = .error error) :
    link.write packets = (.error (.packet error),
      { link with closed := true, shutdowns := link.shutdowns + 1 }) := by
  simp [write, Packet.writeAll, h, hopen, shut]

theorem send_of_open (hopen : link.closed = false) (body : Bytes) :
    link.send body = (link.cut body).2.write (link.cut body).1 := by
  simp [send, hopen]

theorem send_of_closed (hclosed : link.closed = true) (body : Bytes) :
    link.send body = (.ok (), link) := by
  simp [send, hclosed]

/-- A body that is carried goes to the stream, and the link closes if the stream fails. Any other
body leaves the stream alone and closes the link, which sends nothing from then on. -/
theorem sends_carried_or_closes {sink : Sink} {localLabel peerLabel : String} {start : PacketLink}
    (hstart : ofStream sink localLabel peerLabel config = .ok start) (steps : List PacketStep)
    (hopen : (start.run steps).closed = false) (hlength : body.length < 2 ^ 63) :
    let link := start.run steps
    let sent := link.send body
    (config.framing.Carries body → ∃ wire : Bytes,
      Packet.encodeAll config.framing (link.segmenter.segment body).1 = .ok wire ∧
      sent.1 = (link.sink.send wire).1.mapError (fun error => .packet (.ofSink error)) ∧
      sent.2.sink = (link.sink.send wire).2 ∧
      (sent.2.closed = true ↔ ∃ error : SinkError, (link.sink.send wire).1 = .error error)) ∧
    (¬config.framing.Carries body →
      sent.1 = .error (.packet (objection body)) ∧
      sent.2.sink = link.sink ∧
      sent.2.closed = true ∧
      sent.2.shutdowns = link.shutdowns + 1 ∧
      ∀ later : Bytes, sent.2.send later = (.ok (), sent.2)) := by
  have hserves := (serves_ofStream hstart).run steps
  intro link sent
  have hconfig : (link.cut body).2.config = config := hserves.config_eq
  have hsent : sent = (link.cut body).2.write (link.cut body).1 := send_of_open hopen body
  constructor
  · intro hcarries
    obtain ⟨wire, hwire⟩ := hserves.encodeAll_of_carries hcarries
    refine ⟨wire, hwire, ?_⟩
    rw [← hconfig] at hwire
    rw [hsent]
    exact write_of_encodeAll_eq_ok hopen hwire
  · intro hcarries
    have herror := hserves.encodeAll_of_not_carries hcarries hlength
    rw [← hconfig] at herror
    have hclosed := hsent.trans (write_of_encodeAll_eq_error hopen herror)
    rw [hclosed]
    exact ⟨rfl, rfl, rfl, rfl, send_of_closed rfl⟩

/-- A framing without room for a byte: behind an empty body with its checksum, one byte ends the
link. -/
theorem closes_without_room :
    let config : PacketLinkConfig := { framing := { crc := some .ccittFalse, maxBodySize := 0 } }
    ∃ start : PacketLink, ofStream {} "left" "right" config = .ok start ∧
      let link := start.run [.cut [], .receive]
      let sent := link.send [1]
      sent.1 = .error (.packet (.bodyTooLarge 1 0)) ∧ sent.2.sink.writeCalls = 0 ∧
        sent.2.send [] = (.ok (), sent.2) := by
  intro config
  obtain ⟨start, hstart⟩ : ∃ start : PacketLink,
      ofStream {} "left" "right" config = .ok start := ⟨_, rfl⟩
  refine ⟨start, hstart, ?_⟩
  have hopen : (start.run [.cut [], .receive]).closed = false := by
    cases hstart
    rfl
  have hcarries : ¬config.framing.Carries [1] := by
    intro h
    simpa [config] using h.room
  obtain ⟨hresult, hsink, -, -, hlater⟩ :=
    (sends_carried_or_closes hstart [.cut [], .receive] hopen (by decide)).2 hcarries
  refine ⟨hresult, ?_, hlater []⟩
  rw [hsink]
  cases hstart
  rfl

/-- An empty body without a checksum costs the link, though nothing was written: the next body is
dropped, which the same link would have sent. -/
theorem empty_body_closes :
    ∃ link : PacketLink, ofStream {} "left" "right" {} = .ok link ∧
      let sent := link.send []
      sent.1 = .error (.packet (.bodyUnrepresentable 0 0)) ∧
        sent.2.sink = link.sink ∧ link.closed = false ∧ sent.2.closed = true ∧
        (sent.2.send [1]).2.sink.written = [] ∧
        (link.send [1]).2.sink.written = [0, 0, 0xC0, 0, 0, 0, 1] := by
  refine ⟨_, rfl, rfl, rfl, rfl, rfl, rfl, ?_⟩
  decide +kernel

end PacketLink
end SpaceLink
