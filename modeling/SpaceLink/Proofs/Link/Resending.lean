import SpaceLink.Proofs.Link.Capacity
import SpaceLink.Proofs.Link.ResendCache

/-! # What a link answers to requests

The cache of a link is filled by the messages that it cuts, and by nothing else. So a node that
asks for a transaction is answered from the history of these: with the frames of the last message
under the number, if the node is the peer and the cache has not run full since, and with nothing
otherwise.
-/
namespace SpaceLink

/-- The frame asks the node of the configuration for a transaction, with no more data than a frame may
have. -/
def CanLinkConfig.Requests (config : CanLinkConfig) (frame : CanFrame)
    (requester transaction : UInt32) : Prop :=
  frame.data.length ≤ config.can.maxFrameData ∧ ∃ remain : UInt32,
    Fragment.ofCan config.can.layout frame =
      .ok ⟨⟨requester, config.localNode, .retransmit, remain, transaction⟩, frame.data⟩

namespace CanLink

variable {config : CanLinkConfig} {link : CanLink} {body : Bytes} {frames : List CanFrame}

/-- The message that a step sends, under the next number of the link. -/
def sentBy (link : CanLink) : CanStep → List SentTransaction
  | .prepare body =>
    match (link.prepare body).1 with
    | .error _ => []
    | .ok frames => [⟨link.nextKey.transaction, link.nextKey.dst, frames⟩]
  | .write _ => []
  | .hear _ => []
  | .receive => []
  | .close => []

/-- All messages that a run sends. -/
def history (link : CanLink) : List CanStep → List SentTransaction
  | [] => []
  | step :: steps => link.sentBy step ++ (link.step step).history steps

theorem history_append (link : CanLink) (first second : List CanStep) :
    link.history (first ++ second) = link.history first ++ (link.run first).history second := by
  induction first generalizing link with
  | nil => rfl
  | cons step steps ih =>
    rw [List.cons_append, history, history, ih, List.append_assoc]
    rfl

theorem sentBy_of_prepare (h : (link.prepare body).1 = .ok frames) :
    link.sentBy (.prepare body) = [⟨link.nextKey.transaction, link.nextKey.dst, frames⟩] := by
  rw [sentBy, h]

theorem cache_shut (link : CanLink) : link.shut.cache = link.cache := by
  unfold shut
  split <;> rfl

theorem cache_write (link : CanLink) (frames : List CanFrame) :
    (link.write frames).2.cache = link.cache := by
  unfold write
  split
  · rfl
  · exact cache_shut _

theorem cache_hear (link : CanLink) (received : Except CanError CanFrame) :
    (link.hear received).cache = link.cache := by
  cases received with
  | error error =>
    unfold hear
    split
    · rfl
    · exact cache_shut link
  | ok frame =>
    obtain ⟨reassembler, bus, inbox, hhear, -⟩ := hear_ok_eq link frame
    rw [hhear]

/-- A message is kept as it is sent. -/
theorem Serves.cache_prepare (h : link.Serves config) (body : Bytes) :
    (link.prepare body).2.cache =
      (link.sentBy (.prepare body)).foldl ResendCache.insert link.cache := by
  by_cases hfits : Pieces.count config.can.maxFrameData body.length ≤ config.can.layout.maxFrames
  · obtain ⟨fragments, frames, -, -, hprepare⟩ := h.exists_cuts hfits
    rw [sentBy_of_prepare (congrArg Prod.fst hprepare), hprepare, h.dst_nextKey]
    rfl
  · have hcut := h.fragment_of_maxFrames_lt (Nat.lt_of_not_le hfits)
    simp only [sentBy, CanLink.prepare, hcut]
    rfl

theorem Serves.cache_step (h : link.Serves config) (step : CanStep) :
    (link.step step).cache = (link.sentBy step).foldl ResendCache.insert link.cache := by
  cases step with
  | prepare body => exact h.cache_prepare body
  | write frames => exact cache_write link frames
  | hear received => exact cache_hear link received
  | receive => rfl
  | close => exact cache_shut link

theorem Serves.cache_run (h : link.Serves config) (steps : List CanStep) :
    (link.run steps).cache = (link.history steps).foldl ResendCache.insert link.cache := by
  induction steps generalizing link with
  | nil => rfl
  | cons step steps ih =>
    rw [history, List.foldl_append, ← h.cache_step step]
    exact ih (h.step step)

theorem Serves.dst_of_mem_sentBy (h : link.Serves config) {step : CanStep} {sent : SentTransaction}
    (hsent : sent ∈ link.sentBy step) : sent.dst = config.peerNode := by
  cases step with
  | prepare body =>
    simp only [sentBy] at hsent
    split at hsent
    · cases hsent
    · rw [List.mem_singleton.1 hsent]
      exact h.dst_nextKey
  | _ => simp [sentBy] at hsent

/-- Every message is for the peer. -/
theorem Serves.dst_of_mem_history (h : link.Serves config) {steps : List CanStep}
    {sent : SentTransaction} (hsent : sent ∈ link.history steps) : sent.dst = config.peerNode := by
  induction steps generalizing link with
  | nil => cases hsent
  | cons step steps ih =>
    rcases List.mem_append.1 hsent with hfirst | hrest
    · exact h.dst_of_mem_sentBy hfirst
    · exact ih (h.step step) hrest

theorem cache_of_open {bus : BusAccess} (h : CanLink.open bus config = .ok link) :
    link.cache = { depth := config.resendCache } := by
  simp only [CanLink.open, bind, Except.bind] at h
  split at h
  · cases h
  · split at h
    · cases h
    · split at h <;> cases h
      rfl

/-- The cache recalls what the link has sent. -/
theorem recalls_run {bus : BusAccess} {start : CanLink} (h : CanLink.open bus config = .ok start)
    (steps : List CanStep) : (start.run steps).cache.Recalls (start.history steps) := by
  rw [(open_eq_ok h).1.cache_run, cache_of_open h]
  exact ResendCache.recalls_foldl_insert _ _

theorem sent_write (link : CanLink) (frames : List CanFrame) :
    (link.write frames).2.bus.sent = (link.bus.sendAll frames).2.sent := by
  unfold write
  split
  · simp [*]
  · unfold shut
    split <;> simp [*, BusAccess.shutdown]

/-- An open link sends a message in two steps. -/
theorem send_eq_run (hopen : link.closed = false) (hprepare : (link.prepare body).1 = .ok frames) :
    (link.send body).2 = link.run [.prepare body, .write frames] := by
  rcases hresult : link.prepare body with ⟨result, sender⟩
  rw [hresult] at hprepare
  simp only at hprepare
  simp only [send, hopen, hresult, hprepare, run, List.foldl_cons, List.foldl_nil, step]
  rfl

theorem history_send (hprepare : (link.prepare body).1 = .ok frames) :
    link.history [.prepare body, .write frames] =
      [⟨link.nextKey.transaction, link.nextKey.dst, frames⟩] := by
  rw [history, sentBy_of_prepare hprepare]
  rfl

theorem sent_send (hopen : link.closed = false) (hprepare : (link.prepare body).1 = .ok frames) :
    (link.send body).2.bus.sent = (link.bus.sendAll frames).2.sent := by
  obtain ⟨fragmenter, cache, hsender⟩ := prepare_eq link body
  have hbus : (link.step (.prepare body)).bus = link.bus := by
    rw [step, hsender]
  have hwrite := sent_write (link.step (.prepare body)) frames
  rw [hbus] at hwrite
  rw [send_eq_run hopen hprepare]
  exact hwrite

theorem bus_resend (link : CanLink) (requester transaction : UInt32) :
    (link.resend requester transaction).bus =
      (link.bus.sendAll ((link.cache.find? transaction requester).getD [])).2 := by
  unfold resend
  split <;> simp [*, BusAccess.sendAll]

theorem Serves.bus_hear_request (h : link.Serves config) (hlistens : link.inbox.ended = false)
    {frame : CanFrame} {requester transaction : UInt32}
    (hrequests : config.Requests frame requester transaction) :
    (link.hear (.ok frame)).bus =
      (link.bus.sendAll ((link.cache.find? transaction requester).getD [])).2 := by
  obtain ⟨hdata, remain, hframe⟩ := hrequests
  rw [hear_request hlistens h.reassembler_config h.reassembler_node hframe rfl hdata, bus_resend]

/-- What a request for a transaction comes to after the messages that have been sent: the frames of
the last one of them under the number go on the bus, as far as it takes them, unless messages of as
many other numbers have come since as the cache has room for. Nothing else is repeated. -/
structure Answers (link : CanLink) (history : List SentTransaction) (requester transaction : UInt32)
    (after : CanLink) : Prop where
  cache_eq : after.cache = link.cache
  repeated : ∀ {sent : SentTransaction} {newer : Nat},
    ResendCache.LastUnderKey history sent newer → sent.key = (transaction, requester) →
      newer < link.config.resendCache →
        after.bus = (link.bus.sendAll sent.frames).2 ∧
          (link.bus.Takes sent.frames.length → after.bus.sent = link.bus.sent ++ sent.frames)
  evicted : ∀ {sent : SentTransaction} {newer : Nat},
    ResendCache.LastUnderKey history sent newer → sent.key = (transaction, requester) →
      link.config.resendCache ≤ newer → after.bus = link.bus
  unsent : (∀ sent ∈ history, sent.key ≠ (transaction, requester)) → after.bus = link.bus
  stranger : requester ≠ link.config.peerNode → after.bus = link.bus

theorem Serves.answers (h : link.Serves config) (hlistens : link.inbox.ended = false)
    {history : List SentTransaction} (hrecalls : link.cache.Recalls history)
    (hpeer : ∀ sent ∈ history, sent.dst = config.peerNode) {frame : CanFrame}
    {requester transaction : UInt32} (hrequests : config.Requests frame requester transaction) :
    link.Answers history requester transaction (link.hear (.ok frame)) := by
  have hbus := h.bus_hear_request hlistens hrequests
  have hdepth : link.cache.depth = link.config.resendCache := by
    rw [h.cache_depth, h.config_eq]
  have hunsent : (∀ sent ∈ history, sent.key ≠ (transaction, requester)) →
      (link.hear (.ok frame)).bus = link.bus := by
    intro hnone
    rw [hbus, hrecalls.find?_absent hnone]
    rfl
  refine ⟨cache_hear link _, ?_, ?_, hunsent, ?_⟩
  · intro sent newer hlast hkey hroom
    obtain ⟨rfl, rfl⟩ := Prod.mk.inj hkey
    have hfound := hrecalls.find?_last hlast
    rw [hdepth, if_pos hroom] at hfound
    rw [hbus, hfound]
    refine ⟨rfl, fun htakes => ?_⟩
    rw [Option.getD_some, BusAccess.sendAll_of_takes htakes]
    rfl
  · intro sent newer hlast hkey hfull
    obtain ⟨rfl, rfl⟩ := Prod.mk.inj hkey
    have hlost := hrecalls.find?_last hlast
    rw [hdepth, if_neg (Nat.not_lt.2 hfull)] at hlost
    rw [hbus, hlost]
    rfl
  · intro hstranger
    rw [h.config_eq] at hstranger
    refine hunsent fun sent hsent hkey => hstranger ?_
    rw [← hpeer sent hsent]
    exact (congrArg Prod.snd hkey).symm

/-- A cache recalls the last insert under each of the newest keys that it has room for. What is put
into the cache of a link are the messages that it sends: each of them that is not too long, with all
frames as they go on the bus and under the number that these carry. Every request is answered from
the cache and leaves it as it is. -/
theorem resends_latest {config : CanLinkConfig} (hvalid : config.validate = .ok ())
    (bus : BusAccess) :
    (∀ (depth : Nat) (inserts : List SentTransaction),
      let cache := inserts.foldl ResendCache.insert { depth := depth }
      cache.depth = depth ∧ cache.Recalls inserts) ∧
    ∃ start : CanLink, CanLink.open bus config = .ok start ∧ ∀ steps : List CanStep,
      let link := start.run steps
      let history := start.history steps
      (∀ body : Bytes, link.closed = false →
        let total := max 1 (body.length ⌈/⌉ config.can.maxFrameData)
        let limit := 2 ^ config.can.layout.remainBits
        (limit < total → (link.send body).2 = link) ∧
        (total ≤ limit → ∃ (fragments : List Fragment) (frames : List CanFrame),
          link.Cuts body fragments frames ∧
          let sending : List CanStep := [.prepare body, .write frames]
          (link.send body).2 = start.run (steps ++ sending) ∧
          start.history (steps ++ sending) =
            history ++ [⟨link.nextKey.transaction, config.peerNode, frames⟩] ∧
          (link.send body).2.bus.sent = (link.bus.sendAll frames).2.sent)) ∧
      ∀ (frame : CanFrame) (requester transaction : UInt32),
        config.Requests frame requester transaction → link.inbox.ended = false →
          link.Answers history requester transaction (link.hear (.ok frame)) := by
  obtain ⟨start, hstart⟩ := exists_open (CanLinkConfig.validate_eq_ok.1 hvalid) bus
  refine ⟨?_, start, hstart, fun steps => ?_⟩
  · intro depth inserts cache
    exact ⟨congrArg ResendCache.depth (ResendCache.foldl_insert depth inserts),
      ResendCache.recalls_foldl_insert depth inserts⟩
  intro link history
  have hopened : start.Serves config := (open_eq_ok hstart).1
  have hserves : link.Serves config := hopened.run steps
  refine ⟨?_, ?_⟩
  · intro body hopen total limit
    have htotal : Pieces.count config.can.maxFrameData body.length = total :=
      Pieces.count_eq_ceilDiv _ _
    have hlimit : config.can.layout.maxFrames = limit := Layout.maxFrames_eq _
    rw [← htotal, ← hlimit]
    constructor
    · intro hlarge
      rw [hserves.send_of_maxFrames_lt hopen hlarge]
    · intro hfits
      obtain ⟨fragments, frames, hcuts, -, hprepare⟩ := hserves.exists_cuts hfits
      have hframes : (link.prepare body).1 = .ok frames := congrArg Prod.fst hprepare
      refine ⟨fragments, frames, hcuts, ?_, ?_, sent_send hopen hframes⟩
      · rw [send_eq_run hopen hframes, run, run, List.foldl_append]
        rfl
      · rw [history_append, history_send hframes, hserves.dst_nextKey]
  · intro frame requester transaction hrequests hlistens
    exact hserves.answers hlistens (recalls_run hstart steps)
      (fun sent hsent => hopened.dst_of_mem_history hsent) hrequests

/-- Under a layout of two numbers the third message takes the number of the first. A link that keeps
one message repeats the third for it; the second is lost, and no other node is answered. -/
theorem resends_reused_number :
    let config := { CanLinkConfig.of 1 2 ⟨⟨7, 7, 2, 8, 1⟩, 8⟩ with resendCache := 1 }
    let steps : List CanStep := [.prepare [10], .write [⟨266752, [10]⟩],
      .prepare [20], .write [⟨266753, [20]⟩], .prepare [30], .write [⟨266752, [30]⟩]]
    config.validate = .ok () ∧ ∃ start : CanLink, CanLink.open {} config = .ok start ∧
      let link := start.run steps
      link.inbox.ended = false ∧ config.Requests ⟨526336, []⟩ 2 0 ∧
      config.Requests ⟨526337, []⟩ 2 1 ∧ config.Requests ⟨788480, []⟩ 3 0 ∧
      (link.hear (.ok ⟨526336, []⟩)).bus.sent = link.bus.sent ++ [⟨266752, [30]⟩] ∧
      (link.hear (.ok ⟨526337, []⟩)).bus = link.bus ∧
      (link.hear (.ok ⟨788480, []⟩)).bus = link.bus := by
  intro config steps
  have hvalid : config.validate = .ok () := rfl
  obtain ⟨-, start, hstart, hruns⟩ := resends_latest hvalid {}
  obtain ⟨-, hanswers⟩ := hruns steps
  have hconfig : (start.run steps).config = config := ((open_eq_ok hstart).1.run steps).config_eq
  have hhistory : start.history steps =
      [⟨0, 2, [⟨266752, [10]⟩]⟩, ⟨1, 2, [⟨266753, [20]⟩]⟩, ⟨0, 2, [⟨266752, [30]⟩]⟩] := by
    cases hstart
    decide +kernel
  have hlistens : (start.run steps).inbox.ended = false := by
    cases hstart
    decide +kernel
  have htakes : (start.run steps).bus.Takes 1 := by
    cases hstart
    unfold BusAccess.Takes
    decide +kernel
  have hthird : ResendCache.LastUnderKey (start.history steps) ⟨0, 2, [⟨266752, [30]⟩]⟩ 0 := by
    rw [hhistory]
    exact ⟨[⟨0, 2, [⟨266752, [10]⟩]⟩, ⟨1, 2, [⟨266753, [20]⟩]⟩], [], rfl, by simp, rfl⟩
  have hsecond : ResendCache.LastUnderKey (start.history steps) ⟨1, 2, [⟨266753, [20]⟩]⟩ 1 := by
    rw [hhistory]
    exact ⟨[⟨0, 2, [⟨266752, [10]⟩]⟩], [⟨0, 2, [⟨266752, [30]⟩]⟩], rfl, by decide, by decide⟩
  have hzero : config.Requests ⟨526336, []⟩ 2 0 := ⟨by decide, 0, by decide +kernel⟩
  have hone : config.Requests ⟨526337, []⟩ 2 1 := ⟨by decide, 0, by decide +kernel⟩
  have hother : config.Requests ⟨788480, []⟩ 3 0 := ⟨by decide, 0, by decide +kernel⟩
  refine ⟨hvalid, start, hstart, hlistens, hzero, hone, hother, ?_, ?_, ?_⟩
  · have hroom : 0 < (start.run steps).config.resendCache := by
      rw [hconfig]
      decide
    exact ((hanswers _ 2 0 hzero hlistens).repeated hthird rfl hroom).2 htakes
  · have hfull : (start.run steps).config.resendCache ≤ 1 := by
      rw [hconfig]
    exact (hanswers _ 2 1 hone hlistens).evicted hsecond rfl hfull
  · have hstranger : (3 : UInt32) ≠ (start.run steps).config.peerNode := by
      rw [hconfig]
      decide
    exact (hanswers _ 3 0 hother hlistens).stranger hstranger

end CanLink
end SpaceLink
