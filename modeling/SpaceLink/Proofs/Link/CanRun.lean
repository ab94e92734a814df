import SpaceLink.Link.CanLink
import SpaceLink.Proofs.Can.Reassembler

/-! # The life of a bus link

A link takes its steps in any order, over a bus that may refuse any frame. Steps of its sender, of
its listener and of its owner change different parts of it; its configuration stays the valid one it
was opened with, and fragmenter, reassembler and cache stay those that belong to it.
-/
namespace SpaceLink

namespace CanLinkConfig

structure Sound (c : CanLinkConfig) : Prop where
  can : c.can.Sound
  local_le : c.localNode.toNat ≤ c.can.layout.maxNode
  peer_le : c.peerNode.toNat ≤ c.can.layout.maxNode
  queue_ne : c.queueCapacity ≠ some 0

theorem checkNode_eq_ok {layout : Layout} {name : String} {node : UInt32} :
    checkNode layout name node = .ok () ↔ node.toNat ≤ layout.maxNode := by
  unfold checkNode
  split
  · rename_i hlarge
    exact iff_of_false (by simp) (Nat.not_le.2 hlarge)
  · rename_i hsmall
    exact iff_of_true rfl (Nat.not_lt.1 hsmall)

theorem validate_eq_ok {c : CanLinkConfig} : c.validate = .ok () ↔ c.Sound := by
  unfold validate checkQueue
  constructor
  · intro h
    cases hcan : c.can.validate with
    | error error => rw [hcan] at h; cases h
    | ok =>
      cases hlocal : checkNode c.can.layout "local_node" c.localNode with
      | error error => rw [hcan, hlocal] at h; cases h
      | ok =>
        cases hpeer : checkNode c.can.layout "peer_node" c.peerNode with
        | error error => rw [hcan, hlocal, hpeer] at h; cases h
        | ok =>
          rw [hcan, hlocal, hpeer] at h
          refine ⟨CanConfig.validate_eq_ok.1 hcan, checkNode_eq_ok.1 hlocal,
            checkNode_eq_ok.1 hpeer, ?_⟩
          intro hqueue
          rw [if_pos hqueue] at h
          cases h
  · intro h
    rw [CanConfig.validate_eq_ok.2 h.can, checkNode_eq_ok.2 h.local_le,
      checkNode_eq_ok.2 h.peer_le, if_neg h.queue_ne]
    rfl

end CanLinkConfig

namespace BusAccess

@[simp] theorem answer_send (bus : BusAccess) (frame : CanFrame) :
    (bus.send frame).2.answer = bus.answer := by
  unfold send
  split <;> rfl

@[simp] theorem calls_send (bus : BusAccess) (frame : CanFrame) :
    (bus.send frame).2.calls = bus.calls + 1 := by
  unfold send
  split <;> rfl

@[simp] theorem shutdowns_send (bus : BusAccess) (frame : CanFrame) :
    (bus.send frame).2.shutdowns = bus.shutdowns := by
  unfold send
  split <;> rfl

theorem sendAll_cons (frame : CanFrame) (rest : List CanFrame) (bus : BusAccess) :
    sendAll (frame :: rest) bus =
      match (bus.send frame).1 with
      | .error error => (.error error, (bus.send frame).2)
      | .ok () => sendAll rest (bus.send frame).2 := by
  rw [sendAll]
  rcases bus.send frame with ⟨_ | _, after⟩ <;> rfl

@[simp] theorem answer_sendAll (frames : List CanFrame) (bus : BusAccess) :
    (sendAll frames bus).2.answer = bus.answer := by
  induction frames generalizing bus with
  | nil => rfl
  | cons frame rest ih =>
    rw [sendAll_cons]
    split
    · exact answer_send bus frame
    · simp [ih]

theorem shutdowns_sendAll (frames : List CanFrame) (bus : BusAccess) :
    (sendAll frames bus).2.shutdowns = bus.shutdowns := by
  induction frames generalizing bus with
  | nil => rfl
  | cons frame rest ih =>
    rw [sendAll_cons]
    split
    · exact shutdowns_send bus frame
    · simp [ih]

theorem calls_le_sendAll (frames : List CanFrame) (bus : BusAccess) :
    bus.calls ≤ (sendAll frames bus).2.calls := by
  induction frames generalizing bus with
  | nil => exact Nat.le_refl _
  | cons frame rest ih =>
    have hfirst := calls_send bus frame
    have hrest := ih (bus.send frame).2
    rw [sendAll_cons]
    split
    · simp
    · omega

/-- The bus takes so many frames from its coming call on. -/
def Takes (bus : BusAccess) (count : Nat) : Prop := ∀ i < count, bus.answer (bus.calls + i) = none

def took (bus : BusAccess) (frames : List CanFrame) : BusAccess :=
  { bus with calls := bus.calls + frames.length, sent := bus.sent ++ frames }

/-- What is taken off the front leaves the rest to be sent. -/
theorem sendAll_append {bus : BusAccess} {first : List CanFrame} (h : bus.Takes first.length)
    (second : List CanFrame) :
    sendAll (first ++ second) bus = sendAll second (bus.took first) := by
  induction first generalizing bus with
  | nil => simp [took]
  | cons frame rest ih =>
    have hfirst : bus.send frame = (.ok (), bus.took [frame]) := by
      have htaken := h 0 (Nat.succ_pos _)
      rw [Nat.add_zero] at htaken
      rw [send, htaken]
      rfl
    have hrest : (bus.took [frame]).Takes rest.length := by
      intro i hi
      have hnext := h (i + 1) (Nat.succ_lt_succ hi)
      rwa [Nat.add_comm i 1, ← Nat.add_assoc] at hnext
    have htook : (bus.took [frame]).took rest = bus.took (frame :: rest) := by
      have hcalls : bus.calls + 1 + rest.length = bus.calls + (rest.length + 1) := by omega
      simp [took, hcalls]
    rw [List.cons_append, sendAll, hfirst]
    simp only
    rw [ih hrest, htook]

theorem sendAll_of_takes {bus : BusAccess} {frames : List CanFrame}
    (h : bus.Takes frames.length) : sendAll frames bus = (.ok (), bus.took frames) := by
  have hall := sendAll_append h []
  rwa [List.append_nil] at hall

end BusAccess

inductive CanStep where
  | prepare (body : Bytes)
  | write (frames : List CanFrame)
  | hear (received : Except CanError CanFrame)
  | receive
  | close

namespace CanLink

def step (link : CanLink) : CanStep → CanLink
  | .prepare body => (link.prepare body).2
  | .write frames => (link.write frames).2
  | .hear received => link.hear received
  | .receive => (Transport.receive? link).2
  | .close => link.shut

def run (link : CanLink) (steps : List CanStep) : CanLink := steps.foldl step link

variable {link : CanLink}

/-- Cutting a message touches fragmenter and cache alone. -/
theorem prepare_eq (link : CanLink) (body : Bytes) :
    ∃ (fragmenter : Fragmenter) (cache : ResendCache),
      (link.prepare body).2 = { link with fragmenter := fragmenter, cache := cache } := by
  simp only [prepare]
  split
  · exact ⟨_, link.cache, rfl⟩
  · split
    · exact ⟨_, link.cache, rfl⟩
    · exact ⟨_, _, rfl⟩

/-- What a message becomes under the next transaction number. -/
def transactionFor (link : CanLink) (body : Bytes) : Except LinkError SentTransaction :=
  match (link.fragmenter.fragment link.config.localNode link.config.peerNode body).1 with
  | .error error => .error (.can error)
  | .ok fragments =>
    match fragments.mapM (Fragment.toCan link.config.can.layout) with
    | .error error => .error (.can error)
    | .ok frames =>
      let transaction := (fragments.head?.map (·.identifier.transaction)).getD 0
      .ok ⟨transaction, link.config.peerNode, frames⟩

def drawn (link : CanLink) (body : Bytes) : CanLink := { link with
  fragmenter := (link.fragmenter.fragment link.config.localNode link.config.peerNode body).2 }

def keep (link : CanLink) (sent : SentTransaction) : CanLink :=
  { link with cache := link.cache.insert sent }

/-- What may become of bus and inbox while the listener deals with a frame. -/
structure Goes (link : CanLink) (bus : BusAccess) (inbox : Inbox) : Prop where
  answer_eq : bus.answer = link.bus.answer
  calls_le : link.bus.calls ≤ bus.calls
  shutdowns_eq : bus.shutdowns = link.bus.shutdowns
  ended_eq : inbox.ended = link.inbox.ended

/-- Acting on what a frame gave touches bus and inbox alone. -/
theorem act_eq (link : CanLink) (event : Except CanError ReassemblyEvent) :
    ∃ (bus : BusAccess) (inbox : Inbox),
      link.act event = { link with bus := bus, inbox := inbox } ∧ link.Goes bus inbox := by
  have hsame : ∃ (bus : BusAccess) (inbox : Inbox),
      link = { link with bus := bus, inbox := inbox } ∧ link.Goes bus inbox :=
    ⟨link.bus, link.inbox, rfl, rfl, Nat.le_refl _, rfl, rfl⟩
  unfold act
  split
  · exact ⟨link.bus, _, rfl, rfl, Nat.le_refl _, rfl, rfl⟩
  · unfold resend
    split
    · exact hsame
    · exact ⟨_, link.inbox, rfl, BusAccess.answer_sendAll _ _, BusAccess.calls_le_sendAll _ _,
        BusAccess.shutdowns_sendAll _ _, rfl⟩
  · exact hsame
  · exact hsame
  · split
    · simp only [request]
      split
      · exact hsame
      · exact ⟨_, link.inbox, rfl, BusAccess.answer_send _ _, by simp,
          BusAccess.shutdowns_send _ _, rfl⟩
    · exact hsame
  · exact hsame

theorem hear_ok_eq (link : CanLink) (frame : CanFrame) :
    ∃ (reassembler : Reassembler) (bus : BusAccess) (inbox : Inbox),
      link.hear (.ok frame) =
          { link with reassembler := reassembler, bus := bus, inbox := inbox } ∧
        reassembler.config = link.reassembler.config ∧
        reassembler.localNode = link.reassembler.localNode ∧ link.Goes bus inbox := by
  unfold hear
  split
  · exact ⟨link.reassembler, link.bus, link.inbox, rfl, rfl, rfl, rfl, Nat.le_refl _, rfl, rfl⟩
  · obtain ⟨hconfig, hnode⟩ := Reassembler.acceptCan_settings link.reassembler frame
    obtain ⟨bus, inbox, hact, hgoes⟩ :=
      act_eq { link with reassembler := (link.reassembler.acceptCan frame).2 }
        (link.reassembler.acceptCan frame).1
    exact ⟨_, bus, inbox, hact, hconfig, hnode, hgoes.answer_eq, hgoes.calls_le, hgoes.shutdowns_eq,
      hgoes.ended_eq⟩

/-- What a link keeps of its configuration. -/
structure Serves (link : CanLink) (config : CanLinkConfig) : Prop where
  valid : config.Sound
  config_eq : link.config = config
  fragmenter : link.fragmenter.Serves config.can
  reassembler_config : link.reassembler.config = config.can
  reassembler_node : link.reassembler.localNode = some config.localNode
  cache_depth : link.cache.depth = config.resendCache

theorem open_eq_ok {bus : BusAccess} {config : CanLinkConfig} {link : CanLink}
    (h : CanLink.open bus config = .ok link) :
    link.Serves config ∧ link.bus = bus ∧ link.inbox = {} ∧ link.closed = false := by
  rw [CanLink.open] at h
  cases hvalid : config.validate with
  | error error => rw [hvalid] at h; cases h
  | ok =>
    have hsound := CanLinkConfig.validate_eq_ok.1 hvalid
    have hreassembler : Reassembler.of config.can (some config.localNode) =
        .ok { config := config.can, localNode := some config.localNode } := by
      rw [Reassembler.of, CanConfig.validate_eq_ok.2 hsound.can]
      rfl
    cases hfragmenter : Fragmenter.of config.can with
    | error error => rw [hvalid, hfragmenter] at h; cases h
    | ok fragmenter =>
      rw [hvalid, hfragmenter, hreassembler] at h
      cases h
      exact ⟨⟨hsound, rfl, Fragmenter.serves_of hfragmenter, rfl, rfl, rfl⟩, rfl, rfl, rfl⟩

/-- A valid configuration is all that it takes to open a link. -/
theorem exists_open {config : CanLinkConfig} (h : config.Sound) (bus : BusAccess) :
    ∃ link : CanLink, CanLink.open bus config = .ok link := by
  rw [CanLink.open, CanLinkConfig.validate_eq_ok.2 h, Fragmenter.of_eq h.can, Reassembler.of,
    CanConfig.validate_eq_ok.2 h.can]
  exact ⟨_, rfl⟩

section Serves
variable {config : CanLinkConfig} {link : CanLink}

theorem Serves.of_eq (h : link.Serves config) {next : CanLink} (hconfig : next.config = link.config)
    (hfragmenter : next.fragmenter = link.fragmenter)
    (hreassembler : next.reassembler = link.reassembler) (hcache : next.cache = link.cache) :
    next.Serves config := by
  refine ⟨h.valid, hconfig.trans h.config_eq, ?_, ?_, ?_, ?_⟩
  · rw [hfragmenter]
    exact h.fragmenter
  · rw [hreassembler]
    exact h.reassembler_config
  · rw [hreassembler]
    exact h.reassembler_node
  · rw [hcache]
    exact h.cache_depth

theorem Serves.shut (h : link.Serves config) : link.shut.Serves config := by
  unfold CanLink.shut
  split
  · exact h
  · exact h.of_eq rfl rfl rfl rfl

theorem depth_insert (cache : ResendCache) (sent : SentTransaction) :
    (cache.insert sent).depth = cache.depth := by
  unfold ResendCache.insert
  split <;> rfl

theorem Serves.prepare (h : link.Serves config) (body : Bytes) :
    (link.prepare body).2.Serves config := by
  have hfragmenter := h.fragmenter.fragment link.config.localNode link.config.peerNode body
  simp only [CanLink.prepare]
  split
  · exact ⟨h.valid, h.config_eq, hfragmenter, h.reassembler_config, h.reassembler_node,
      h.cache_depth⟩
  · split
    · exact ⟨h.valid, h.config_eq, hfragmenter, h.reassembler_config, h.reassembler_node,
        h.cache_depth⟩
    · exact ⟨h.valid, h.config_eq, hfragmenter, h.reassembler_config, h.reassembler_node,
        (depth_insert _ _).trans h.cache_depth⟩

theorem Serves.hear (h : link.Serves config) (received : Except CanError CanFrame) :
    (link.hear received).Serves config := by
  cases received with
  | error error =>
    unfold CanLink.hear
    split
    · exact h
    · exact h.shut.of_eq rfl rfl rfl rfl
  | ok frame =>
    obtain ⟨reassembler, bus, inbox, hhear, hconfig, hnode, -⟩ := hear_ok_eq link frame
    rw [hhear]
    exact ⟨h.valid, h.config_eq, h.fragmenter, hconfig.trans h.reassembler_config,
      hnode.trans h.reassembler_node, h.cache_depth⟩

theorem Serves.step (h : link.Serves config) (step : CanStep) : (link.step step).Serves config := by
  cases step with
  | prepare body => exact h.prepare body
  | write frames =>
    simp only [CanLink.step, CanLink.write]
    split
    · exact h.of_eq rfl rfl rfl rfl
    · exact Serves.shut (h.of_eq rfl rfl rfl rfl)
  | hear received => exact h.hear received
  | receive => exact h.of_eq rfl rfl rfl rfl
  | close => exact h.shut

theorem Serves.run (h : link.Serves config) (steps : List CanStep) :
    (link.run steps).Serves config := by
  induction steps generalizing link with
  | nil => exact h
  | cons step steps ih => exact ih (h.step step)

end Serves

end CanLink
end SpaceLink
