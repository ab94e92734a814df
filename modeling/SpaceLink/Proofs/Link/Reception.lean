import SpaceLink.Proofs.Link.PacketRun
import SpaceLink.Proofs.Packet.Dissection

/-! # Listening to a stream

The listener of a packet link goes on behind every whole packet, whatever comes of it, and stops
where a read fails in another way than by a checksum. So it stops on every stream. What it hands over
are the messages that the intact packets join to, and no step that others take meanwhile changes
that: senders, the one who takes the messages, and the owner who closes the link.
-/
namespace SpaceLink
open Packet Desegmenter

/-- A link whose listener reads from a source until it stops, with the messages taken so far. -/
structure Reception where
  link : PacketLink
  source : Option Source
  taken : List Message := []

inductive ReceptionStep where
  | listen
  | take
  | cut (body : Bytes)
  | write (packets : List Packet)
  | close
  deriving DecidableEq

namespace Reception

def step (r : Reception) : ReceptionStep → Reception
  | .listen =>
    match r.source with
    | none => r
    | some source => { r with link := (r.link.hear source).1, source := (r.link.hear source).2 }
  | .take =>
    match Transport.receive? r.link with
    | (some (.ok message), link) => { r with link := link, taken := r.taken ++ [message] }
    | (_, link) => { r with link := link }
  | .cut body => { r with link := (r.link.cut body).2 }
  | .write packets => { r with link := (r.link.write packets).2 }
  | .close => { r with link := r.link.shut }

def run (r : Reception) (schedule : List ReceptionStep) : Reception := schedule.foldl step r

end Reception

namespace PacketLink

/-- What a fresh desegmenter joins from the intact packets of a stream. -/
def assembled (config : PacketLinkConfig) (pieces : List Bytes) : List Packet :=
  delivered ((Desegmenter.of config.maxMessageSize).acceptAll (intact config.framing pieces)).1

theorem intact_append (f : Framing) (pieces more : List Bytes) :
    intact f (pieces ++ more) = intact f pieces ++ intact f more := List.filterMap_append

/-- A turn of the listener takes one whole packet off the stream. -/
theorem hear_of_isCut {link : PacketLink} {source : Source} {piece rest : Bytes}
    (hcut : IsCut link.config.framing piece) (hsmooth : source.Smooth)
    (hcontents : source.contents = piece ++ rest) :
    ∃ left : Source, link.hear source =
        ((intact link.config.framing [piece]).foldl acceptPacket link, some left) ∧
      left.Smooth ∧ left.contents = rest := by
  obtain ⟨hread, hleft, hrest⟩ := read_of_cut hcut hsmooth hcontents
  refine ⟨(read link.config.framing source).2, ?_, hleft, hrest⟩
  rcases hresult : read link.config.framing source with ⟨result, left⟩
  rw [hresult] at hread
  rcases decode_of_isCut hcut with ⟨p, hdecode, -⟩ | ⟨-, error, hdecode, computed, found, rfl⟩
  · obtain rfl : result = .ok p := hread.trans hdecode
    simp [hear, hresult, intact, hdecode, Except.toOption]
  · obtain rfl : result = .error (.crcMismatch computed found) := hread.trans hdecode
    simp [hear, hresult, intact, hdecode, Except.toOption]

/-- Any other failure is the last that the listener meets. -/
theorem hear_of_fails {link : PacketLink} {source : Source} {error : PacketError}
    (hread : (read link.config.framing source).1 = .error error) (herror : ¬error.IsMismatch) :
    link.hear source = (link.endListening, none) := by
  rcases hresult : read link.config.framing source with ⟨result, left⟩
  rw [hresult] at hread
  obtain rfl : result = .error error := hread
  rw [hear, hresult]
  split
  · rename_i heq
    cases heq
  · rename_i computed found _ heq
    cases heq
    exact absurd ⟨computed, found, rfl⟩ herror
  · rfl

/-- What belongs to the listener is the same, and a link that was closed is closed. -/
structure SameListener (link next : PacketLink) : Prop where
  config_eq : next.config = link.config
  peer_eq : next.peer = link.peer
  desegmenter_eq : next.desegmenter = link.desegmenter
  inbox_eq : next.inbox = link.inbox
  closed_of : link.closed = true → next.closed = true

theorem sameListener_cut (link : PacketLink) (body : Bytes) : link.SameListener (link.cut body).2 :=
  ⟨rfl, rfl, rfl, rfl, id⟩

theorem sameListener_shut (link : PacketLink) : link.SameListener link.shut := by
  rw [shut]
  split
  · exact ⟨rfl, rfl, rfl, rfl, id⟩
  · exact ⟨rfl, rfl, rfl, rfl, fun _ => rfl⟩

theorem sameListener_write (link : PacketLink) (packets : List Packet) :
    link.SameListener (link.write packets).2 := by
  rw [write]
  split
  · exact ⟨rfl, rfl, rfl, rfl, id⟩
  · rename_i sink _
    obtain ⟨hconfig, hpeer, hdesegmenter, hinbox, hclosed⟩ :=
      sameListener_shut { link with sink := sink }
    exact ⟨hconfig, hpeer, hdesegmenter, hinbox, hclosed⟩

theorem endListening_eq (link : PacketLink) :
    link.endListening.closed = true ∧ link.endListening.inbox = link.inbox.finish ∧
      link.endListening.config = link.config ∧ link.endListening.peer = link.peer ∧
      link.endListening.desegmenter = link.desegmenter := by
  obtain ⟨hconfig, hpeer, hdesegmenter, hinbox, -⟩ := sameListener_shut link
  have hclosed : link.shut.closed = true := by
    rw [shut]
    split
    · assumption
    · rfl
  exact ⟨hclosed, congrArg Inbox.finish hinbox, hconfig, hpeer, hdesegmenter⟩

end PacketLink

namespace Reception
open PacketLink

variable {config : PacketLinkConfig} {peer : String} {pieces : List Bytes} {r : Reception}

/-- The oldest message that waits is taken, if there is one. -/
theorem step_take (r : Reception) :
    (r.link.inbox.waiting = [] ∧ r.step .take = r) ∨
      ∃ (message : Message) (later : List Message), r.link.inbox.waiting = message :: later ∧
        r.step .take = { r with
          link := { r.link with inbox := { r.link.inbox with waiting := later } }
          taken := r.taken ++ [message] } := by
  cases hwaiting : r.link.inbox.waiting with
  | nil =>
    refine .inl ⟨rfl, ?_⟩
    simp only [step, Transport.receive?, Inbox.receive?, hwaiting]
    cases r.link.inbox.ended <;> rfl
  | cons message later =>
    refine .inr ⟨message, later, rfl, ?_⟩
    simp only [step, Transport.receive?, Inbox.receive?, hwaiting]

/-- What holds when the listener has dealt with the pieces. -/
structure Heard (config : PacketLinkConfig) (peer : String) (pieces : List Bytes) (r : Reception) :
    Prop where
  config_eq : r.link.config = config
  peer_eq : r.link.peer = peer
  desegmenter_eq : r.link.desegmenter =
    ((Desegmenter.of config.maxMessageSize).acceptAll (intact config.framing pieces)).2
  handed_eq : r.taken ++ r.link.inbox.waiting = (assembled config pieces).map (messageOf peer)

theorem Heard.of_same (h : Heard config peer pieces r) {next : PacketLink}
    (hsame : r.link.SameListener next) : Heard config peer pieces { r with link := next } where
  config_eq := hsame.config_eq.trans h.config_eq
  peer_eq := hsame.peer_eq.trans h.peer_eq
  desegmenter_eq := hsame.desegmenter_eq.trans h.desegmenter_eq
  handed_eq := by
    rw [hsame.inbox_eq]
    exact h.handed_eq

theorem Heard.take (h : Heard config peer pieces r) : Heard config peer pieces (r.step .take) := by
  obtain ⟨-, hstep⟩ | ⟨message, later, hwaiting, hstep⟩ := r.step_take
  · rw [hstep]
    exact h
  · have hhanded := h.handed_eq
    rw [hwaiting] at hhanded
    rw [hstep]
    exact ⟨h.config_eq, h.peer_eq, h.desegmenter_eq, by rw [← hhanded]; simp⟩

/-- One more packet, be it intact or damaged. -/
theorem Heard.piece (h : Heard config peer pieces r) (piece : Bytes) (left : Option Source) :
    Heard config peer (pieces ++ [piece]) { r with
      link := (intact config.framing [piece]).foldl acceptPacket r.link, source := left } := by
  have hintact : intact config.framing (pieces ++ [piece]) =
      intact config.framing pieces ++ intact config.framing [piece] := intact_append _ _ _
  cases hdecode : decode config.framing piece with
  | error error =>
    have hnone : intact config.framing [piece] = [] := by
      simp [intact, hdecode, Except.toOption]
    rw [hnone, List.append_nil] at hintact
    rw [hnone]
    exact ⟨h.config_eq, h.peer_eq, by rw [hintact]; exact h.desegmenter_eq,
      by rw [assembled, hintact]; exact h.handed_eq⟩
  | ok p =>
    have hone : intact config.framing [piece] = [p] := by
      simp [intact, hdecode, Except.toOption]
    have haccept := acceptAll_append (Desegmenter.of config.maxMessageSize)
      (intact config.framing pieces) [p]
    rw [← h.desegmenter_eq] at haccept
    rw [hone] at hintact ⊢
    have hhanded := h.handed_eq
    rw [assembled] at hhanded
    simp only [List.foldl_cons, List.foldl_nil, acceptPacket]
    rcases hjoined : r.link.desegmenter.accept p with ⟨error | _ | message, desegmenter⟩ <;>
      simp only [acceptAll, hjoined] at haccept
    · refine ⟨h.config_eq, h.peer_eq, by rw [hintact, haccept], ?_⟩
      rw [assembled, hintact, haccept, delivered_append, List.map_append, ← hhanded]
      exact (List.append_nil _).symm
    · refine ⟨h.config_eq, h.peer_eq, by rw [hintact, haccept], ?_⟩
      rw [assembled, hintact, haccept, delivered_append, List.map_append, ← hhanded]
      exact (List.append_nil _).symm
    · refine ⟨h.config_eq, h.peer_eq, by rw [hintact, haccept], ?_⟩
      rw [assembled, hintact, haccept, delivered_append, List.map_append, ← hhanded, ← h.peer_eq]
      exact (List.append_assoc _ _ _).symm

variable {rest : Bytes} {turns : Nat}

/-- What holds after so many turns of the listener, whatever steps others have taken. -/
structure Follows (config : PacketLinkConfig) (peer : String) (pieces : List Bytes) (rest : Bytes)
    (turns : Nat) (r : Reception) : Prop where
  heard : Heard config peer (pieces.take turns) r
  goes_on : turns ≤ pieces.length → ∃ left : Source, r.source = some left ∧ left.Smooth ∧
    left.contents = (pieces.drop turns).flatten ++ rest
  stopped : pieces.length < turns →
    r.source = none ∧ r.link.closed = true ∧ r.link.inbox.ended = true

theorem follows_start {link : PacketLink} {source : Source} (hsmooth : source.Smooth)
    (hstream : Dissected config.framing source.contents pieces rest)
    (hlink : Heard config peer [] { link := link, source := some source }) :
    Follows config peer pieces rest 0 { link := link, source := some source } where
  heard := hlink
  goes_on _ := ⟨source, rfl, hsmooth, hstream.stream_eq⟩
  stopped hlt := absurd hlt (Nat.not_lt_zero _)

theorem Follows.listen {stream : Bytes} (h : Follows config peer pieces rest turns r)
    (hstream : Dissected config.framing stream pieces rest) :
    Follows config peer pieces rest (turns + 1) (r.step .listen) := by
  rcases Nat.lt_trichotomy turns pieces.length with hmore | hend | hpast
  · obtain ⟨source, hsource, hsmooth, hcontents⟩ := h.goes_on (Nat.le_of_lt hmore)
    rw [List.drop_eq_getElem_cons hmore, List.flatten_cons, List.append_assoc] at hcontents
    have hcut : IsCut r.link.config.framing pieces[turns] := by
      rw [h.heard.config_eq]
      exact hstream.isCut _ (List.getElem_mem hmore)
    obtain ⟨left, hhear, hleft, hrest⟩ := hear_of_isCut hcut hsmooth hcontents
    have hpiece := h.heard.piece pieces[turns] (some left)
    rw [List.take_concat_get' pieces turns hmore] at hpiece
    rw [h.heard.config_eq] at hhear
    simp only [step, hsource, hhear]
    exact ⟨hpiece, fun _ => ⟨left, rfl, hleft, hrest⟩, fun hlt => by omega⟩
  · obtain ⟨source, hsource, hsmooth, hcontents⟩ := h.goes_on (Nat.le_of_eq hend)
    obtain ⟨error, hread, herror⟩ := hstream.fails
    rw [hend, List.drop_length, List.flatten_nil, List.nil_append] at hcontents
    have hsame := ((PacketReading.regular_packet config.framing).same hsmooth
      (Source.smooth_ofBytes rest) (by rw [hcontents, Source.contents_ofBytes])).1
    have hhear : r.link.hear source = (r.link.endListening, none) := by
      apply hear_of_fails _ herror
      rw [h.heard.config_eq]
      exact hsame.trans hread
    obtain ⟨hclosed, hinbox, hconfig, hpeer, hdesegmenter⟩ := endListening_eq r.link
    have hall : pieces.take (turns + 1) = pieces.take turns := by
      rw [hend, List.take_length, List.take_of_length_le (Nat.le_succ _)]
    simp only [step, hsource, hhear]
    refine ⟨?_, fun hle => by omega, fun _ => ⟨rfl, hclosed, by rw [hinbox]; rfl⟩⟩
    rw [hall]
    exact ⟨hconfig.trans h.heard.config_eq, hpeer.trans h.heard.peer_eq,
      hdesegmenter.trans h.heard.desegmenter_eq, by rw [hinbox]; exact h.heard.handed_eq⟩
  · obtain ⟨hsource, hclosed, hended⟩ := h.stopped hpast
    have hall : pieces.take (turns + 1) = pieces.take turns := by
      rw [List.take_of_length_le (by omega), List.take_of_length_le (by omega)]
    simp only [step, hsource]
    exact ⟨by rw [hall]; exact h.heard, fun hle => by omega, fun _ => ⟨hsource, hclosed, hended⟩⟩

theorem Follows.of_same (h : Follows config peer pieces rest turns r) {next : PacketLink}
    (hsame : r.link.SameListener next) :
    Follows config peer pieces rest turns { r with link := next } where
  heard := h.heard.of_same hsame
  goes_on := h.goes_on
  stopped hlt := by
    obtain ⟨hsource, hclosed, hended⟩ := h.stopped hlt
    exact ⟨hsource, hsame.closed_of hclosed, by rw [hsame.inbox_eq]; exact hended⟩

theorem Follows.take (h : Follows config peer pieces rest turns r) :
    Follows config peer pieces rest turns (r.step .take) := by
  refine ⟨h.heard.take, ?_, ?_⟩
  · obtain ⟨-, hstep⟩ | ⟨message, later, -, hstep⟩ := r.step_take <;> rw [hstep]
    · exact h.goes_on
    · exact h.goes_on
  · obtain ⟨-, hstep⟩ | ⟨message, later, -, hstep⟩ := r.step_take <;> rw [hstep]
    · exact h.stopped
    · exact h.stopped

theorem Follows.run {stream : Bytes} (h : Follows config peer pieces rest turns r)
    (hstream : Dissected config.framing stream pieces rest) (schedule : List ReceptionStep) :
    Follows config peer pieces rest (turns + schedule.count .listen) (r.run schedule) := by
  induction schedule generalizing r turns with
  | nil => exact h
  | cons first schedule ih =>
    cases first with
    | listen =>
      rw [List.count_cons_self, Nat.add_comm _ 1, ← Nat.add_assoc]
      exact ih (h.listen hstream)
    | take =>
      rw [List.count_cons_of_ne (by simp)]
      exact ih h.take
    | cut body =>
      rw [List.count_cons_of_ne (by simp)]
      exact ih (h.of_same (sameListener_cut _ _))
    | write packets =>
      rw [List.count_cons_of_ne (by simp)]
      exact ih (h.of_same (sameListener_write _ _))
    | close =>
      rw [List.count_cons_of_ne (by simp)]
      exact ih (h.of_same (sameListener_shut _))

theorem run_of_stopped (hstopped : r.source = none) (limit : Nat) :
    r.run (List.replicate limit .listen) = r := by
  induction limit with
  | zero => rfl
  | succ limit ih =>
    have hstep : r.step .listen = r := by simp only [step, hstopped]
    rw [List.replicate_succ, run, List.foldl_cons, hstep]
    exact ih

/-- A bound on the turns of a listener does not show if the listener stops within it. -/
theorem hearUpTo_eq_run {link : PacketLink} {source : Source} {limit : Nat}
    (hstopped : (run ⟨link, some source, []⟩ (List.replicate limit .listen)).source = none) :
    link.hearUpTo limit source =
      (run ⟨link, some source, []⟩ (List.replicate limit .listen)).link := by
  induction limit generalizing link source with
  | zero => cases hstopped
  | succ limit ih =>
    have hfirst : run ⟨link, some source, []⟩ (List.replicate (limit + 1) .listen) =
        run ⟨(link.hear source).1, (link.hear source).2, []⟩ (List.replicate limit .listen) := rfl
    rw [hfirst] at hstopped ⊢
    rcases hhear : link.hear source with ⟨next, _ | left⟩
    · rw [hearUpTo, hhear, run_of_stopped rfl]
    · rw [hhear] at hstopped
      rw [hearUpTo, hhear]
      exact ih hstopped

end Reception

namespace PacketLink
open Reception

/-- The listener of a link stops on every stream, one turn behind the last whole packet. Each turn
before takes one of them, and what has been handed over, taken or not, is what a fresh desegmenter
joins from those taken off so far: a message for each, with its bytes, its numbers and the peer that
it comes from. The loop of the link comes to the same. -/
theorem listens_to_end {sink : Sink} {localLabel peerLabel : String} {config : PacketLinkConfig}
    {link : PacketLink} (hlink : ofStream sink localLabel peerLabel config = .ok link)
    {source : Source} (hsmooth : source.Smooth) :
    ∃ (pieces : List Bytes) (rest : Bytes),
      Dissected config.framing source.contents pieces rest ∧
      pieces.length ≤ source.contents.length ∧
      (∀ piece ∈ pieces,
        (∃ p : Packet, decode config.framing piece = .ok p ∧
          p.encode config.framing = .ok piece) ∨
        config.framing.crc ≠ none ∧ ∃ error : PacketError,
          decode config.framing piece = .error error ∧ error.IsMismatch) ∧
      (∀ schedule : List ReceptionStep,
        let r := Reception.run { link := link, source := some source } schedule
        let turns := schedule.count .listen
        r.taken ++ r.link.inbox.waiting = (assembled config (pieces.take turns)).map (fun p =>
          let source := (PacketAddress.mk peerLabel (some p.header.apid)).render
          { source := source
            body := p.body
            properties := [("apid", s!"{p.header.apid.toNat}"),
              ("apid_qualifier", s!"{p.qualifier.toNat}"), ("source", source)] }) ∧
        (turns ≤ pieces.length → ∃ left : Source, r.source = some left ∧
          left.contents = (pieces.drop turns).flatten ++ rest) ∧
        (pieces.length < turns →
          r.source = none ∧ r.link.closed = true ∧ r.link.inbox.ended = true)) ∧
      link.hearAll source =
        (Reception.run { link := link, source := some source }
          (List.replicate (source.contents.length + 1) .listen)).link := by
  obtain ⟨-, heq⟩ := ofStream_eq hlink
  obtain ⟨pieces, rest, hstream⟩ := exists_dissected config.framing source.contents
  have hlength := hstream.length_le
  have hheard : Heard config peerLabel [] { link := link, source := some source } := by
    rw [heq]
    exact ⟨rfl, rfl, rfl, rfl⟩
  have hstart := follows_start hsmooth hstream hheard
  refine ⟨pieces, rest, hstream, hlength, ?_, ?_, ?_⟩
  · intro piece hpiece
    exact decode_of_isCut (hstream.isCut piece hpiece)
  · intro schedule r turns
    have hrun : Follows config peerLabel pieces rest (0 + turns) r := hstart.run hstream schedule
    rw [Nat.zero_add] at hrun
    refine ⟨?_, fun hturns => ?_, hrun.stopped⟩
    · rw [hrun.heard.handed_eq]
      exact List.map_congr_left fun p _ => messageOf_eq peerLabel p
    obtain ⟨left, hleft, -, hcontents⟩ := hrun.goes_on hturns
    exact ⟨left, hleft, hcontents⟩
  · have hrun := hstart.run hstream (List.replicate (source.contents.length + 1) .listen)
    rw [List.count_replicate_self, Nat.zero_add] at hrun
    exact hearUpTo_eq_run (hrun.stopped (by omega)).1

/-- A damaged packet is passed over, the next two are messages, and what is left is too short to be
a packet and ends the link. -/
theorem listens_past_damage :
    let config : PacketLinkConfig :=
      { framing := { crc := some .arc }, maxMessageSize := 2 }
    let source : Source :=
      [.data [0, 5, 0xC0, 7, 0, 3, 0xAA, 0xBC], .data [0x13, 0x3F, 0, 5, 0xC0],
        .fault (.ofKind .interrupted), .data [7, 0, 3, 0xAA, 0xBB, 0x13, 0x3F, 0, 6, 0xC0],
        .data [0, 0, 2, 1, 0xD7, 0xC0, 0xFF, 0xFF]]
    ∃ link : PacketLink, ofStream {} "left" "right" config = .ok link ∧
      (link.hearAll source).inbox.waiting =
        [⟨"malspp://right/5", [0xAA, 0xBB],
          [("apid", "5"), ("apid_qualifier", "0"), ("source", "malspp://right/5")]⟩,
        ⟨"malspp://right/6", [1],
          [("apid", "6"), ("apid_qualifier", "0"), ("source", "malspp://right/6")]⟩] ∧
      (link.hearAll source).inbox.ended = true ∧ (link.hearAll source).closed = true := by
  intro config source
  obtain ⟨link, hlink⟩ : ∃ link : PacketLink,
      ofStream {} "left" "right" config = .ok link := ⟨_, rfl⟩
  have hsmooth : source.Smooth :=
    Source.smooth_cons.2 ⟨List.cons_ne_nil _ _, Source.smooth_cons.2 ⟨List.cons_ne_nil _ _,
      Source.smooth_cons.2 ⟨rfl, Source.smooth_cons.2 ⟨List.cons_ne_nil _ _,
        Source.smooth_cons.2 ⟨List.cons_ne_nil _ _, Source.smooth_nil⟩⟩⟩⟩⟩
  obtain ⟨pieces, rest, -, hlength, -, hruns, hall⟩ := listens_to_end hlink hsmooth
  obtain ⟨-, -, hstopped⟩ := hruns (List.replicate (source.contents.length + 1) .listen)
  rw [List.count_replicate_self, ← hall] at hstopped
  obtain ⟨-, hclosed, hended⟩ := hstopped (by omega)
  refine ⟨link, hlink, ?_, hended, hclosed⟩
  cases hlink
  decide +kernel

end PacketLink
end SpaceLink
