import Mathlib.Data.List.Forall2
import Mathlib.Data.List.Induction
import SpaceLink.Proofs.Link.PacketRun

/-! # Senders that share a link

A message is sent in two steps: its packets are cut, and later written in one go. Other senders take
their steps in between, so messages may be written in another order than that of their counts. The
receiver gets them whole, in the order of the writes.
-/
namespace SpaceLink

inductive SendStep (ι : Type) where
  | cut (sender : ι)
  | write (sender : ι)

namespace SendStep

variable {ι : Type}

def sender : SendStep ι → ι
  | cut i => i
  | write i => i

def writeOrder (schedule : List (SendStep ι)) : List ι :=
  schedule.filterMap fun
    | cut _ => none
    | write i => some i

variable [DecidableEq ι]

/-- Each sender takes its two steps, and the steps of different senders come in any order. -/
def Interleaves (schedule : List (SendStep ι)) : Prop :=
  ∀ i : ι, schedule.filter (·.sender = i) = [cut i, write i]

theorem Interleaves.cut_mem {done rest : List (SendStep ι)} {i : ι}
    (h : Interleaves (done ++ write i :: rest)) : cut i ∈ done := by
  have hsteps := h i
  have hfirst : cut i ∈ done.filter (·.sender = i) := by
    rw [List.filter_append, List.filter_cons_of_pos (by simp [sender])] at hsteps
    cases hfilter : done.filter (·.sender = i) with
    | nil => simp [hfilter] at hsteps
    | cons step steps =>
      rw [hfilter, List.cons_append, List.cons.injEq] at hsteps
      rw [hsteps.1]
      exact List.mem_cons_self
  exact (List.mem_filter.1 hfirst).1

theorem filter_writeOrder (schedule : List (SendStep ι)) (i : ι) :
    (writeOrder schedule).filter (· = i) = writeOrder (schedule.filter (·.sender = i)) := by
  induction schedule with
  | nil => rfl
  | cons step rest ih =>
    cases step with
    | cut j => by_cases h : j = i <;> simpa [writeOrder, sender, h] using ih
    | write j => by_cases h : j = i <;> simpa [writeOrder, sender, h] using ih

theorem Interleaves.count_writeOrder {schedule : List (SendStep ι)} (h : Interleaves schedule)
    (i : ι) : (writeOrder schedule).count i = 1 := by
  have hlength : ((writeOrder schedule).filter (· = i)).length = 1 := by
    rw [filter_writeOrder, h i]
    rfl
  rw [List.count_eq_length_filter]
  exact hlength

end SendStep

namespace Segmenter
open Desegmenter

/-- The packets are those of the body, counted from anywhere. -/
def Cuts (s : Segmenter) (body : Bytes) (packets : List Packet) : Prop :=
  ∃ counter : SequenceCounter, counter.wrap = s.counter.wrap ∧
    packets = ({ s with counter := counter }.segment body).1

theorem Cuts.acceptAll {s : Segmenter} (h : s.Sound) (f : Framing) {body : Bytes}
    {packets : List Packet} (hcuts : s.Cuts body packets) (hbody : body.length < 2 ^ 63)
    (d : Desegmenter) (hsize : body.length ≤ d.maxMessageSize) :
    ∃ m : Packet, d.acceptAll (packets.map (Packet.received f)) =
        (List.replicate (packets.length - 1) (.ok none) ++ [.ok (some m)],
          d.forget (s.keyAt f)) ∧
      keyOf m = s.keyAt f ∧ m.body = body := by
  obtain ⟨counter, hwrap, rfl⟩ := hcuts
  exact acceptAll_segment (h.recount hwrap) f hbody d hsize

end Segmenter

namespace Desegmenter

/-- An idle desegmenter takes in one whole message after the other, and is idle again. -/
theorem acceptAll_batches {s : Segmenter} (h : s.Sound) (f : Framing) {d : Desegmenter}
    (hidle : d.inProgress = {}) {sent : List Bytes} {batches : List (List Packet)}
    (hcuts : List.Forall₂ s.Cuts sent batches)
    (hsent : ∀ body ∈ sent, body.length < 2 ^ 63 ∧ body.length ≤ d.maxMessageSize) :
    Clean (d.acceptAll (batches.flatten.map (Packet.received f))).1 ∧
      (delivered (d.acceptAll (batches.flatten.map (Packet.received f))).1).map
          (fun m => (keyOf m, m.body)) = sent.map (fun body => (s.keyAt f, body)) ∧
      (d.acceptAll (batches.flatten.map (Packet.received f))).2 = d := by
  induction hcuts with
  | nil => exact ⟨by simp [Clean, acceptAll], rfl, rfl⟩
  | @cons body packets sent batches hfirst hrest ih =>
    obtain ⟨⟨hbody, hsize⟩, hlater⟩ := List.forall_mem_cons.1 hsent
    obtain ⟨m, haccept, hkey, hm⟩ := hfirst.acceptAll h f hbody d hsize
    have hforget : d.forget (s.keyAt f) = d := by
      rw [forget, hidle, Store.erase_empty, ← hidle]
    obtain ⟨hclean, hmessages, hd⟩ := ih hlater
    rw [hforget] at haccept
    rw [List.flatten_cons, List.map_append, acceptAll_append, haccept]
    refine ⟨?_, ?_, hd⟩
    · intro result hresult
      rcases List.mem_append.1 hresult with hr | hr
      · rcases List.mem_append.1 hr with hr | hr
        · exact ⟨none, List.eq_of_mem_replicate hr⟩
        · exact ⟨some m, List.mem_singleton.1 hr⟩
      · exact hclean result hr
    · have hnone : delivered (List.replicate (packets.length - 1) (.ok none)) = [] := by
        simp [delivered]
      rw [delivered_append, delivered_append, hnone, List.map_append, hmessages, List.map_cons, ← hkey, ← hm]
      rfl

end Desegmenter

/-- The packets of a link can be framed, whatever is sent. -/
structure PacketLink.Framed (link : PacketLink) : Prop where
  sound : link.segmenter.Sound
  body_le : link.segmenter.maxBody ≤ link.config.framing.effectiveMaxBody
  data_le : link.segmenter.maxBody + link.config.framing.crcLength ≤ Framing.maxDataField

/-- A body that a packet can carry and that fits in memory. -/
structure Sendable (f : Framing) (body : Bytes) : Prop where
  datum : body ≠ [] ∨ f.crc.isSome = true
  length_lt : body.length < 2 ^ 63

namespace PacketLink

variable {link : PacketLink}

theorem Framed.frameable (hlink : link.Framed) {body : Bytes} {packets : List Packet}
    (hbody : Sendable link.config.framing body) (hcuts : link.segmenter.Cuts body packets) :
    ∀ p ∈ packets, p.Frameable link.config.framing := by
  obtain ⟨counter, hwrap, rfl⟩ := hcuts
  intro p hp
  exact Segmenter.frameable_of_mem_segment (hlink.sound.recount hwrap)
    (Nat.le_trans (Nat.min_le_left _ _) hlink.body_le) hlink.data_le hbody.datum hp

theorem Framed.frameable_batches (hlink : link.Framed) {sent : List Bytes}
    {batches : List (List Packet)} (hcuts : List.Forall₂ link.segmenter.Cuts sent batches)
    (hsent : ∀ body ∈ sent, Sendable link.config.framing body) :
    ∀ p ∈ batches.flatten, p.Frameable link.config.framing := by
  induction hcuts with
  | nil => simp
  | cons hfirst _ ih =>
    obtain ⟨hbody, hlater⟩ := List.forall_mem_cons.1 hsent
    intro p hp
    rcases List.mem_append.1 hp with hp | hp
    · exact hlink.frameable hbody hfirst p hp
    · exact ih hlater p hp

theorem write_of_open {packets : List Packet}
    (hframeable : ∀ p ∈ packets, p.Frameable link.config.framing) (hopen : link.sink.Open) :
    link.write packets = (.ok (), { link with
      sink := (Packet.writeAll link.config.framing packets link.sink).2 }) := by
  obtain ⟨hresult, -, -⟩ := Packet.writeAll_of_open hframeable hopen
  rw [write]
  cases hwrite : Packet.writeAll link.config.framing packets link.sink with
  | mk result sink =>
    rw [hwrite] at hresult
    simp only at hresult
    rw [hresult]

end PacketLink

/-- A link that several senders share: the packets that each of them has cut, and how the sends that
have ended did so. -/
structure Sharing (ι : Type) where
  link : PacketLink
  packets : ι → List Packet := fun _ => []
  results : List (ι × Except LinkError Unit) := []

namespace Sharing
open SendStep

variable {ι : Type} [DecidableEq ι]

def step (bodies : ι → Bytes) (s : Sharing ι) : SendStep ι → Sharing ι
  | .cut i =>
    let (packets, link) := s.link.cut (bodies i)
    { s with link := link, packets := Function.update s.packets i packets }
  | .write i =>
    let (result, link) := s.link.write (s.packets i)
    { s with link := link, results := s.results ++ [(i, result)] }

def run (bodies : ι → Bytes) (s : Sharing ι) (schedule : List (SendStep ι)) : Sharing ι :=
  schedule.foldl (step bodies) s

/-- What holds after the steps `done`: every packet cut is one of its body, and the stream has taken
the packets of those that wrote, in their order. -/
structure After (link : PacketLink) (bodies : ι → Bytes) (done : List (SendStep ι))
    (s : Sharing ι) : Prop where
  config_eq : s.link.config = link.config
  segmenter_eq : ∃ counter : SequenceCounter, counter.wrap = link.segmenter.counter.wrap ∧
    s.link.segmenter = { link.segmenter with counter := counter }
  isOpen : s.link.sink.Open
  cuts : ∀ i : ι, cut i ∈ done → link.segmenter.Cuts (bodies i) (s.packets i)
  results_eq : s.results = (writeOrder done).map fun i => (i, .ok ())
  written : ∃ batches : List (List Packet),
    List.Forall₂ link.segmenter.Cuts ((writeOrder done).map bodies) batches ∧
      s.link.sink.written =
        link.sink.written ++ batches.flatten.flatMap (Packet.wire link.config.framing)

variable {link : PacketLink} {bodies : ι → Bytes} {done : List (SendStep ι)} {s : Sharing ι}

omit [DecidableEq ι] in
theorem After.start (hopen : link.sink.Open) : After link bodies [] { link := link } where
  config_eq := rfl
  segmenter_eq := ⟨link.segmenter.counter, rfl, rfl⟩
  isOpen := hopen
  cuts := by simp
  results_eq := rfl
  written := ⟨[], .nil, by simp⟩

theorem After.cut (h : After link bodies done s) (i : ι) :
    After link bodies (done ++ [.cut i]) (s.step bodies (.cut i)) := by
  obtain ⟨counter, hwrap, hsegmenter⟩ := h.segmenter_eq
  have horder : writeOrder (done ++ [SendStep.cut i]) = writeOrder done := by simp [writeOrder]
  refine ⟨h.config_eq, ?_, h.isOpen, ?_, ?_, ?_⟩
  · have hnew : (s.step bodies (.cut i)).link.segmenter =
        (s.link.segmenter.segment (bodies i)).2 := rfl
    refine ⟨(s.link.segmenter.segment (bodies i)).2.counter, ?_, ?_⟩
    · rw [hsegmenter]
      exact hwrap
    · rw [hnew, hsegmenter]
      rfl
  · intro j hj
    by_cases hji : j = i
    · subst hji
      refine ⟨counter, hwrap, ?_⟩
      rw [← hsegmenter]
      exact Function.update_self _ _ _
    · have hdone : SendStep.cut j ∈ done := by simpa [hji] using hj
      have hsame : (s.step bodies (.cut i)).packets j = s.packets j :=
        Function.update_of_ne hji _ _
      rw [hsame]
      exact h.cuts j hdone
  · rw [horder]
    exact h.results_eq
  · rw [horder]
    exact h.written

theorem After.write (h : After link bodies done s) (hlink : link.Framed)
    (hbodies : ∀ i, Sendable link.config.framing (bodies i)) {i : ι} (hcut : .cut i ∈ done) :
    After link bodies (done ++ [.write i]) (s.step bodies (.write i)) := by
  have hcuts := h.cuts i hcut
  have hframeable := hlink.frameable (hbodies i) hcuts
  obtain ⟨-, hwritten, hopen⟩ := Packet.writeAll_of_open hframeable h.isOpen
  have hwrite := PacketLink.write_of_open (by rw [h.config_eq]; exact hframeable) h.isOpen
  rw [h.config_eq] at hwrite
  have horder : writeOrder (done ++ [SendStep.write i]) = writeOrder done ++ [i] := by
    simp [writeOrder]
  obtain ⟨batches, hbatches, hsink⟩ := h.written
  refine ⟨?_, ?_, ?_, ?_, ?_, ?_⟩
  · rw [step, hwrite]
  · rw [step, hwrite]
    exact h.segmenter_eq
  · rw [step, hwrite]
    exact hopen
  · intro j hj
    have hdone : SendStep.cut j ∈ done := by simpa using hj
    rw [step, hwrite]
    exact h.cuts j hdone
  · rw [step, hwrite, horder, List.map_append]
    exact congrArg (· ++ [(i, .ok ())]) h.results_eq
  · refine ⟨batches ++ [s.packets i], ?_, ?_⟩
    · rw [horder, List.map_append]
      exact List.rel_append hbatches (.cons hcuts .nil)
    · rw [step, hwrite]
      simp [hwritten, hsink]

/-- Any beginning of an interleaving keeps the link in order. -/
theorem After.run (hlink : link.Framed) (hopen : link.sink.Open)
    (hbodies : ∀ i, Sendable link.config.framing (bodies i)) {rest : List (SendStep ι)}
    (h : Interleaves (done ++ rest)) :
    After link bodies done (Sharing.run bodies { link := link } done) := by
  induction done using List.reverseRecOn generalizing rest with
  | nil => exact .start hopen
  | append_singleton done step ih =>
    rw [List.append_assoc, List.singleton_append] at h
    have hdone := ih h
    have hrun : Sharing.run bodies { link := link } (done ++ [step]) =
        (Sharing.run bodies { link := link } done).step bodies step := List.foldl_concat _ _ _ _
    rw [hrun]
    cases step with
    | cut i => exact hdone.cut i
    | write i => exact hdone.write hlink hbodies h.cut_mem

end Sharing

namespace PacketLink
open Desegmenter SendStep

theorem framed_ofStream {sink : Sink} {localLabel peerLabel : String} {config : PacketLinkConfig}
    {link : PacketLink} (h : ofStream sink localLabel peerLabel config = .ok link)
    (hmax : 1 ≤ config.framing.maxBodySize) : link.Framed := by
  have hserves := serves_ofStream h
  have hpos : 1 ≤ config.framing.effectiveMaxBody := Nat.le_min.2 ⟨hmax, by decide⟩
  have hlimit : config.framing.crcLength < Framing.maxDataField := config.framing.crcLength_lt
  refine ⟨hserves.sound, ?_, ?_⟩
  · rw [hserves.maxBody_eq, hserves.config_eq]
    omega
  · rw [hserves.maxBody_eq, hserves.config_eq]
    omega

/-- The receiver of a shared link gets every message once and whole, in the order of the writes. -/
theorem receives_concurrent_sends {ι : Type} [DecidableEq ι] {sink : Sink}
    {localLabel peerLabel : String} {config receiver : PacketLinkConfig} {link : PacketLink}
    (hlink : ofStream sink localLabel peerLabel config = .ok link) (hopen : sink.Open)
    (hmax : 1 ≤ config.framing.maxBodySize) (hframing : receiver.framing = config.framing)
    {bodies : ι → Bytes} (hbodies : ∀ i, Sendable receiver.framing (bodies i))
    (hsize : ∀ i, (bodies i).length ≤ receiver.maxMessageSize) {schedule : List (SendStep ι)}
    (hschedule : Interleaves schedule) :
    let sent := Sharing.run bodies { link := link } schedule
    let order := writeOrder schedule
    (∀ i, order.count i = 1) ∧ sent.results = order.map (fun i => (i, .ok ())) ∧
      ∀ source : Source, source.Smooth →
        sink.written ++ source.contents = sent.link.sink.written →
        ∃ packets : List Packet, Packet.ReadsAll receiver.framing source packets ∧
          let taken := (Desegmenter.of receiver.maxMessageSize).acceptAll packets
          Clean taken.1 ∧
            (delivered taken.1).map (fun m => (m.qualifier, m.header.apid, m.body)) =
              order.map (fun i =>
                (if config.framing.qualifierInMessage then config.qualifier
                  else receiver.framing.defaultQualifier, config.apid, bodies i)) ∧
            taken.2.pending = 0 := by
  have hframed := framed_ofStream hlink hmax
  obtain ⟨-, rfl, rfl, hsegmenter⟩ := ofStream_eq_ok hlink
  rw [hframing] at hbodies ⊢
  have hdone := Sharing.After.run hframed hopen hbodies
    (show Interleaves (schedule ++ []) by simpa using hschedule)
  refine ⟨hschedule.count_writeOrder, hdone.results_eq, ?_⟩
  intro source hsmooth hcontents
  obtain ⟨batches, hbatches, hwritten⟩ := hdone.written
  rw [hwritten, List.append_cancel_left_eq] at hcontents
  have hframeable := hframed.frameable_batches hbatches (by
    intro body hbody
    obtain ⟨i, -, rfl⟩ := List.mem_map.1 hbody
    exact hbodies i)
  refine ⟨_, Packet.readsAll_wires hframeable hsmooth hcontents, ?_⟩
  obtain ⟨hclean, hmessages, hidle⟩ := acceptAll_batches hframed.sound link.config.framing
    (d := .of receiver.maxMessageSize) rfl hbatches (by
      intro body hbody
      obtain ⟨i, -, rfl⟩ := List.mem_map.1 hbody
      exact ⟨(hbodies i).length_lt, hsize i⟩)
  have hkey : link.segmenter.keyAt link.config.framing =
      (if link.config.framing.qualifierInMessage then link.config.qualifier
        else link.config.framing.defaultQualifier, link.config.apid) := by
    rw [hsegmenter]
    rfl
  have hfields := congrArg (List.map fun entry => (entry.1.1, entry.1.2, entry.2)) hmessages
  rw [hkey, List.map_map, List.map_map, List.map_map] at hfields
  refine ⟨hclean, hfields, ?_⟩
  rw [hidle]
  rfl

/-- A long message and a short one, written in the other order than they were cut. -/
theorem receives_swapped_writes :
    ∃ link : PacketLink,
      ofStream {} "left" "right" { apid := 5, maxPacketBody := 2, maxMessageSize := 3 } = .ok link ∧
      let sent := Sharing.run (fun i : Bool => if i then [1, 2, 3] else [4]) { link := link }
        [.cut true, .cut false, .write false, .write true]
      sent.results = [(false, .ok ()), (true, .ok ())] ∧
        ∃ packets : List Packet,
          Packet.ReadsAll {} (.ofBytes sent.link.sink.written) packets ∧
            (delivered ((Desegmenter.of 3).acceptAll packets).1).map
                (fun m => (m.qualifier, m.header.apid, m.body)) =
              [(0, 5, [4]), (0, 5, [1, 2, 3])] := by
  obtain ⟨link, hlink⟩ : ∃ link : PacketLink, ofStream {} "left" "right"
      { apid := 5, maxPacketBody := 2, maxMessageSize := 3 } = .ok link := ⟨_, rfl⟩
  refine ⟨link, hlink, ?_⟩
  have hopen : ({} : Sink).Open := ⟨by simp, by simp⟩
  have hbodies : ∀ i : Bool, Sendable {} (if i then [1, 2, 3] else [4]) := by
    intro i
    cases i <;> exact ⟨.inl (by simp), by simp⟩
  have hsize : ∀ i : Bool, (if i then [1, 2, 3] else [4] : Bytes).length ≤ 3 := by decide
  have hschedule : Interleaves [SendStep.cut true, .cut false, .write false, .write true] := by
    intro i
    cases i <;> rfl
  obtain ⟨-, hresults, hread⟩ := receives_concurrent_sends hlink hopen (by decide) rfl hbodies
    hsize hschedule
  have hcontents : ∀ wire : Bytes, ({} : Sink).written ++ (Source.ofBytes wire).contents = wire := by
    intro wire
    rw [Source.contents_ofBytes]
    rfl
  obtain ⟨packets, hreads, -, hmessages, -⟩ := hread _ (Source.smooth_ofBytes _) (hcontents _)
  refine ⟨hresults, ?_⟩
  exact ⟨packets, hreads, hmessages⟩

end PacketLink
end SpaceLink
