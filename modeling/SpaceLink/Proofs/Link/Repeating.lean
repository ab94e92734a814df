import Mathlib.Data.List.Forall2
import SpaceLink.Proofs.Link.CanRun
import SpaceLink.Proofs.Link.Progress

/-! # Transactions that are kept and repeated

On a bus that takes everything, a link keeps the frames of a message that it cuts, and puts all of
them on the bus again for a node that asks. A link that hears a row of frames break asks for the
transaction, once for each break.
-/
namespace SpaceLink
open Fragmenter

namespace ResendCache

/-- A transaction is kept if there is room for one at all. -/
theorem find?_insert_self {cache : ResendCache} (h : cache.depth ≠ 0) (sent : SentTransaction) :
    (cache.insert sent).find? sent.transaction sent.dst = some sent.frames := by
  have hothers : ∀ e ∈ cache.entries.filter
        (fun e => !(e.transaction = sent.transaction && e.dst = sent.dst)),
      ¬(e.transaction = sent.transaction && e.dst = sent.dst) = true := by
    intro e he
    have hne := (List.mem_filter.1 he).2
    rw [Bool.not_eq_true'] at hne
    exact Bool.eq_false_iff.1 hne
  unfold insert find?
  rw [if_neg h]
  simp only
  rw [List.find?_append, List.find?_eq_none.2]
  · simp
  · intro e he
    split at he
    · exact hothers e (List.mem_of_mem_tail he)
    · exact hothers e he

end ResendCache

namespace BusAccess

/-- From its coming call on the bus takes every frame. -/
def Willing (bus : BusAccess) : Prop := ∀ call, bus.calls ≤ call → bus.answer call = none

variable {bus : BusAccess}

theorem Willing.send_eq (h : bus.Willing) (frame : CanFrame) :
    bus.send frame =
      (.ok (), { bus with calls := bus.calls + 1, sent := bus.sent ++ [frame] }) := by
  simp [send, h bus.calls (Nat.le_refl _)]

theorem Willing.send (h : bus.Willing) (frame : CanFrame) : (bus.send frame).2.Willing := by
  intro call hcall
  rw [calls_send] at hcall
  rw [answer_send]
  exact h call (by omega)

theorem Willing.takes (h : bus.Willing) (count : Nat) : bus.Takes count :=
  fun _ _ => h _ (Nat.le_add_right _ _)

theorem Willing.sendAll (h : bus.Willing) (frames : List CanFrame) :
    (BusAccess.sendAll frames bus).1 = .ok () ∧
      (BusAccess.sendAll frames bus).2.sent = bus.sent ++ frames ∧
      (BusAccess.sendAll frames bus).2.Willing := by
  rw [sendAll_of_takes (h.takes frames.length)]
  exact ⟨rfl, rfl, fun call hcall => h call (Nat.le_trans (Nat.le_add_right _ _) hcall)⟩

end BusAccess

/-- A node within the limit can be source as well as destination. -/
theorem Layout.lt_of_le_maxNode {l : Layout} {node : Nat} (h : node ≤ l.maxNode) :
    node < 2 ^ l.srcBits ∧ node < 2 ^ l.dstBits := by
  have hpos := Nat.two_pow_pos (min l.srcBits l.dstBits)
  have hsrc := Nat.pow_le_pow_right (by decide : 0 < 2) (Nat.min_le_left l.srcBits l.dstBits)
  have hdst := Nat.pow_le_pow_right (by decide : 0 < 2) (Nat.min_le_right l.srcBits l.dstBits)
  rw [maxNode, Nat.one_shiftLeft] at h
  omega

namespace Transaction

variable {config : CanConfig} (t : Transaction config)

/-- What the receiver asks for the transaction with. -/
def request : Fragment := retransmissionRequest t.dst t.src t.key.transaction

/-- The frame, read off the bus, is the one at the index. -/
def At (index : Nat) (frame : CanFrame) : Prop :=
  ∃ f : Fragment, t.frames[index]? = some f ∧ Fragment.ofCan config.layout frame = .ok f

theorem transaction_head :
    (t.frames.head?.map (·.identifier.transaction)).getD 0 = t.key.transaction := by
  have hindex : t.frames[0]? = some (t.frames.get ⟨0, t.length_frames_pos⟩) :=
    List.getElem?_eq_getElem _
  rw [List.head?_eq_getElem?, hindex]
  exact (route_frame hindex).2.2

theorem exists_mapM_toCan {fragments : List Fragment}
    (h : ∀ f ∈ fragments, ∃ frame : CanFrame, f.toCan config.layout = .ok frame ∧
      Fragment.ofCan config.layout frame = .ok f) :
    ∃ frames : List CanFrame, fragments.mapM (Fragment.toCan config.layout) = .ok frames ∧
      List.Forall₂ (fun f frame => Fragment.ofCan config.layout frame = .ok f) fragments frames := by
  induction fragments with
  | nil => exact ⟨[], rfl, .nil⟩
  | cons f rest ih =>
    obtain ⟨hfirst, hrest⟩ := List.forall_mem_cons.1 h
    obtain ⟨frame, hto, hof⟩ := hfirst
    obtain ⟨frames, hframes, hall⟩ := ih hrest
    refine ⟨frame :: frames, ?_, .cons hof hall⟩
    rw [List.mapM_cons, hto, hframes]
    rfl

/-- All frames of a transaction go on the bus, and are read off it by their place. -/
theorem exists_frames : ∃ frames : List CanFrame,
    t.frames.mapM (Fragment.toCan config.layout) = .ok frames ∧
      List.Forall₂ t.At (List.range t.frames.length) frames := by
  have hcarried : ∀ f ∈ t.frames, ∃ frame : CanFrame, f.toCan config.layout = .ok frame ∧
      Fragment.ofCan config.layout frame = .ok f := by
    intro f hf
    obtain ⟨index, hindex⟩ := List.mem_iff_getElem?.1 hf
    exact ofCan_toCan hindex
  obtain ⟨frames, hframes, hall⟩ := exists_mapM_toCan hcarried
  refine ⟨frames, hframes, ?_⟩
  have hlength := hall.length_eq
  rw [List.forall₂_iff_get] at hall ⊢
  refine ⟨by simpa using hlength, ?_⟩
  intro index hindex hframe
  rw [List.length_range] at hindex
  refine ⟨t.frames[index], ?_, by simpa using hall.2 index hindex hframe⟩
  simp [List.getElem?_eq_getElem hindex]

/-- A request goes on the bus as the frames do, the other way. -/
theorem exists_request (hsrc : t.src.toNat ≤ config.layout.maxNode)
    (hdst : t.dst.toNat ≤ config.layout.maxNode) :
    ∃ frame : CanFrame, t.request.toCan config.layout = .ok frame ∧
      Fragment.ofCan config.layout frame = .ok t.request := by
  have htransaction := t.number_lt
  rw [← toNat_transaction, Layout.transactionWrap_eq] at htransaction
  exact Fragment.ofCan_toCan_of_fits t.serves.sound.layout
    ⟨htransaction, Nat.two_pow_pos _, Nat.two_pow_pos _, (Layout.lt_of_le_maxNode hsrc).2,
      (Layout.lt_of_le_maxNode hdst).1⟩ rfl (Nat.zero_le _)

end Transaction

/-- The identifier that a fragmenter tries before it draws a number fits. -/
theorem CanLinkConfig.Sound.exists_pack_start {c : CanLinkConfig} (h : c.Sound) {total : Nat}
    (hfits : total ≤ c.can.layout.maxFrames) : ∃ raw : UInt32,
      c.can.layout.pack ⟨c.localNode, c.peerNode, .start, UInt32.ofNat (total - 1), 0⟩ =
        .ok raw := by
  exact Fragmenter.exists_pack_start h.can hfits (Layout.lt_of_le_maxNode h.peer_le).2
    (Layout.lt_of_le_maxNode h.local_le).1

namespace CanLink

/-- The key of the message that the link sends next. -/
def nextKey (link : CanLink) : TransactionKey :=
  ⟨link.config.localNode, link.config.peerNode, link.fragmenter.transactions.next.1.toUInt32⟩

variable {config : CanLinkConfig} {link : CanLink}

theorem Serves.src_nextKey (h : link.Serves config) : link.nextKey.src = config.localNode := by
  rw [nextKey, h.config_eq]

theorem Serves.dst_nextKey (h : link.Serves config) : link.nextKey.dst = config.peerNode := by
  rw [nextKey, h.config_eq]

/-- A body that fits the layout is cut into a transaction of its own, whose frames all go on the
bus. -/
theorem Serves.exists_transaction (h : link.Serves config) {body : Bytes}
    (hfits : Pieces.count config.can.maxFrameData body.length ≤ config.can.layout.maxFrames) :
    ∃ (t : Transaction config.can) (frames : List CanFrame), t.sender = link.fragmenter ∧
      t.payload = body ∧ t.src = config.localNode ∧ t.dst = config.peerNode ∧
      t.key = link.nextKey ∧ t.frames.mapM (Fragment.toCan config.can.layout) = .ok frames ∧
      List.Forall₂ t.At (List.range t.frames.length) frames := by
  obtain ⟨raw, hpack⟩ := h.valid.exists_pack_start hfits
  obtain ⟨fragments, hfragments⟩ : ∃ fragments : List Fragment,
      (link.fragmenter.fragment config.localNode config.peerNode body).1 = .ok fragments := by
    simp only [fragment, framesFor, h.fragmenter.config_eq, if_neg (Nat.not_lt.2 hfits), hpack]
    exact ⟨_, rfl⟩
  let t : Transaction config.can :=
    ⟨link.fragmenter, config.localNode, config.peerNode, body, fragments, h.fragmenter, hfragments⟩
  obtain ⟨frames, hframes, hall⟩ := t.exists_frames
  have hkey : t.key = link.nextKey := by
    rw [nextKey, h.config_eq, SequenceCounter.next_fst]
    rfl
  exact ⟨t, frames, rfl, rfl, rfl, rfl, hkey, hframes, hall⟩

theorem Serves.fragment_transaction (h : link.Serves config) {t : Transaction config.can}
    (hsender : t.sender = link.fragmenter) (hsrc : t.src = config.localNode)
    (hdst : t.dst = config.peerNode) :
    link.fragmenter.fragment link.config.localNode link.config.peerNode t.payload =
      (.ok t.frames, t.after) := by
  rw [h.config_eq, ← hsender, ← hsrc, ← hdst]
  exact Prod.ext t.frames_eq rfl

/-- The transaction is what the link keeps and has left to send. -/
theorem Serves.prepare_transaction (h : link.Serves config) {t : Transaction config.can}
    {frames : List CanFrame} (hsender : t.sender = link.fragmenter)
    (hsrc : t.src = config.localNode) (hdst : t.dst = config.peerNode)
    (hframes : t.frames.mapM (Fragment.toCan config.can.layout) = .ok frames) :
    link.prepare t.payload = (.ok frames, { link with
      fragmenter := t.after
      cache := link.cache.insert ⟨t.key.transaction, config.peerNode, frames⟩ }) := by
  have hcut := h.fragment_transaction hsender hsrc hdst
  rw [h.config_eq] at hcut
  simp only [CanLink.prepare, h.config_eq, hcut, hframes, t.transaction_head]

/-- A body that fits the layout is cut into a transaction of its own, which is kept. -/
theorem Serves.prepare_eq (h : link.Serves config) {body : Bytes}
    (hfits : Pieces.count config.can.maxFrameData body.length ≤ config.can.layout.maxFrames) :
    ∃ (t : Transaction config.can) (frames : List CanFrame), t.payload = body ∧
      t.src = config.localNode ∧ t.dst = config.peerNode ∧ t.key = link.nextKey ∧
      List.Forall₂ t.At (List.range t.frames.length) frames ∧
      link.prepare body = (.ok frames, { link with
        fragmenter := t.after
        cache := link.cache.insert ⟨t.key.transaction, config.peerNode, frames⟩ }) := by
  obtain ⟨t, frames, hsender, rfl, hsrc, hdst, hkey, hframes, hall⟩ := h.exists_transaction hfits
  exact ⟨t, frames, rfl, hsrc, hdst, hkey, hall, h.prepare_transaction hsender hsrc hdst hframes⟩

/-- A link whose listener runs, at a node of a bus that takes everything. -/
structure Attends (link : CanLink) (can : CanConfig) (node : UInt32) : Prop where
  listens : link.inbox.ended = false
  willing : link.bus.Willing
  config_eq : link.config.can = can
  node_eq : link.config.localNode = node
  reassembler_config : link.reassembler.config = can
  reassembler_node : link.reassembler.localNode = some node

variable {can : CanConfig} {node : UInt32} {frame : CanFrame} {t : Transaction can} {f : Fragment}

theorem Serves.attends (h : link.Serves config) (hlistens : link.inbox.ended = false)
    (hwilling : link.bus.Willing) : link.Attends config.can config.localNode :=
  ⟨hlistens, hwilling, by rw [h.config_eq], by rw [h.config_eq], h.reassembler_config,
    h.reassembler_node⟩

theorem Attends.hear (h : link.Attends can node) (frame : CanFrame) :
    (link.hear (.ok frame)).Attends can node ∧
      (link.hear (.ok frame)).config = link.config ∧ (link.hear (.ok frame)).cache = link.cache := by
  obtain ⟨reassembler, bus, inbox, hhear, hconfig, hnode, hgoes⟩ := hear_ok_eq link frame
  rw [hhear]
  refine ⟨⟨hgoes.ended_eq.trans h.listens, ?_, h.config_eq, h.node_eq,
    hconfig.trans h.reassembler_config, hnode.trans h.reassembler_node⟩, rfl, rfl⟩
  intro call hcall
  rw [hgoes.answer_eq]
  exact h.willing call (Nat.le_trans hgoes.calls_le hcall)

theorem Attends.hear_eq (h : link.Attends can node)
    (hframe : Fragment.ofCan can.layout frame = .ok f) :
    link.hear (.ok frame) =
      act { link with reassembler := (link.reassembler.accept f).2 }
        (link.reassembler.accept f).1 := by
  simp [CanLink.hear, h.listens, Reassembler.acceptCan, h.reassembler_config, hframe]

/-- The link still has the frames of the transaction. -/
structure Keeps (link : CanLink) (t : Transaction can) (frames : List CanFrame) : Prop where
  attends : link.Attends can t.src
  cached : link.cache.find? t.key.transaction t.dst = some frames

/-- One frame of a message goes out. -/
def offer (link : CanLink) (frame : CanFrame) : CanLink :=
  { link with bus := (link.bus.send frame).2 }

theorem write_of_willing (h : link.bus.Willing) (frames : List CanFrame) :
    link.write frames = (.ok (), frames.foldl offer link) := by
  induction frames generalizing link with
  | nil => rfl
  | cons frame rest ih =>
    have hfirst := h.send_eq frame
    have hrest : (link.offer frame).write rest = (.ok (), rest.foldl offer (link.offer frame)) :=
      ih (h.send frame)
    rw [List.foldl_cons, ← hrest]
    simp only [write, BusAccess.sendAll_cons, hfirst, CanLink.offer]

variable {frames : List CanFrame}

/-- What an open link sends is what it has prepared, frame by frame. -/
theorem send_eq_offers (hopen : link.closed = false) (h : link.bus.Willing) {body : Bytes}
    {sender : CanLink} (hprepare : link.prepare body = (.ok frames, sender)) :
    link.send body = (.ok (), frames.foldl CanLink.offer sender) := by
  obtain ⟨fragmenter, cache, hsender⟩ := CanLink.prepare_eq link body
  have hwilling : sender.bus.Willing := by
    rw [hprepare] at hsender
    simp only at hsender
    rw [hsender]
    exact h
  simp only [send, hopen, hprepare]
  exact write_of_willing hwilling frames

theorem Keeps.offer (h : link.Keeps t frames) (frame : CanFrame) :
    (link.offer frame).Keeps t frames ∧ (link.offer frame).bus.sent = link.bus.sent ++ [frame] := by
  obtain ⟨hattends, hcached⟩ := h
  have hsend := hattends.willing.send_eq frame
  refine ⟨⟨⟨hattends.listens, hattends.willing.send frame, hattends.config_eq, hattends.node_eq,
    hattends.reassembler_config, hattends.reassembler_node⟩, hcached⟩, ?_⟩
  simp [CanLink.offer, hsend]

/-- A listener that is asked for a transaction closes the buffer that runs the other way, and repeats
the transaction. -/
theorem hear_request (hlistens : link.inbox.ended = false) (hconfig : link.reassembler.config = can)
    (hnode : link.reassembler.localNode = some f.identifier.dst)
    (hframe : Fragment.ofCan can.layout frame = .ok f)
    (htype : f.identifier.frameType = .retransmit) (hdata : f.data.length ≤ can.maxFrameData) :
    link.hear (.ok frame) =
      { link with
        reassembler := link.reassembler.close
          ⟨f.identifier.dst, f.identifier.src, f.identifier.transaction⟩ }.resend
        f.identifier.src f.identifier.transaction := by
  subst hconfig
  have hhears : link.reassembler.localNode.any (· ≠ f.identifier.dst) = false := by simp [hnode]
  have haccept : link.reassembler.accept f =
      (.ok (.retransmissionRequested f.identifier.src f.identifier.dst f.identifier.transaction),
        link.reassembler.close
          ⟨f.identifier.dst, f.identifier.src, f.identifier.transaction⟩) := by
    simp only [Reassembler.accept, hhears, Nat.not_lt.2 hdata, htype]
    rfl
  simp only [CanLink.hear, hlistens, Reassembler.acceptCan, hframe, haccept, act]
  rfl

/-- Asked for the transaction, the link sends all its frames again. -/
theorem Keeps.hear_request (h : link.Keeps t frames)
    (hframe : Fragment.ofCan can.layout frame = .ok t.request) :
    (link.hear (.ok frame)).Keeps t frames ∧
      (link.hear (.ok frame)).bus.sent = link.bus.sent ++ frames := by
  obtain ⟨hattends, -, hcache⟩ := h.attends.hear frame
  refine ⟨⟨hattends, by rw [hcache, h.cached]⟩, ?_⟩
  obtain ⟨-, hsent, -⟩ := h.attends.willing.sendAll frames
  rw [CanLink.hear_request h.attends.listens h.attends.reassembler_config
    h.attends.reassembler_node hframe rfl (Nat.zero_le _)]
  simp only [resend, Transaction.request, retransmissionRequest, h.cached]
  exact hsent

end CanLink

namespace CanLink

variable {can : CanConfig} {t : Transaction can} {request frame : CanFrame} {f : Fragment}
  {start link : CanLink} {p : Progress} {index : Nat}

/-- The buffer of the transaction holds that many frames; there is none if it holds no frame. -/
def Holding (r : Reassembler) (t : Transaction can) (held : Nat) : Prop :=
  (held = 0 ∧ r.buffers.get? t.key = none) ∨
    ∃ o : OpenTransaction, r.buffers.get? t.key = some o ∧ o.Holds t held

/-- The link shows the progress, counted from the state `start`. -/
structure Shows (start : CanLink) (t : Transaction can) (request : CanFrame) (link : CanLink)
    (p : Progress) : Prop where
  attends : link.Attends can t.dst
  asks : link.config.requestRetransmission = true
  waiting_eq : link.inbox.waiting =
    start.inbox.waiting ++ List.replicate p.deliveries (messageOf t.key t.payload)
  sent_eq : link.bus.sent = start.bus.sent ++ List.replicate p.requests request
  holding : Holding link.reassembler t p.held

theorem Holding.awaits {r : Reassembler} {held : Nat} (h : Holding r t held)
    (hrow : index = 0 ∨ index = held) : r.Awaits t index := by
  rcases hrow with hfirst | rfl
  · exact .inl hfirst
  · rcases h with ⟨hzero, -⟩ | hopen
    · exact .inl hzero
    · exact .inr hopen

/-- The frame that comes next is kept, or completes the payload. -/
theorem Shows.hear_row (h : Shows start t request link p) (hf : t.frames[index]? = some f)
    (hframe : Fragment.ofCan can.layout frame = .ok f) (hrow : index = 0 ∨ index = p.held) :
    Shows start t request (link.hear (.ok frame)) (p.hear t.frames.length index) := by
  obtain ⟨hattends, hconfig, -⟩ := h.attends.hear frame
  have hears : link.reassembler.Hears t.dst := by
    simp [Reassembler.Hears, h.attends.reassembler_node]
  have hawaits := h.holding.awaits hrow
  have hhear := h.attends.hear_eq hframe
  by_cases hlast : index + 1 = t.frames.length
  · have hp : p.hear t.frames.length index =
        { p with held := 0, deliveries := p.deliveries + 1 } := by
      simp [Progress.hear, hrow, hlast]
    rw [Reassembler.accept_end hf h.attends.reassembler_config hears hawaits hlast] at hhear
    refine ⟨hattends, by rw [hconfig, h.asks], ?_, ?_, ?_⟩
    · simp [hhear, act, Inbox.push, h.waiting_eq, hp, List.replicate_succ']
    · simp [hhear, act, h.sent_eq, hp]
    · rw [hhear, hp]
      exact .inl ⟨rfl, Reassembler.get?_close_self _ _⟩
  · have hp : p.hear t.frames.length index = { p with held := index + 1 } := by
      simp [Progress.hear, hrow, hlast]
    have hmore : index + 1 < t.frames.length := by
      have hindex := (List.getElem?_eq_some_iff.1 hf).1
      omega
    obtain ⟨o, hholds, haccept⟩ :=
      Reassembler.accept_next hf h.attends.reassembler_config hears hawaits hmore
    rw [haccept] at hhear
    refine ⟨hattends, by rw [hconfig, h.asks], ?_, ?_, ?_⟩
    · simp [hhear, act, h.waiting_eq, hp]
    · simp [hhear, act, h.sent_eq, hp]
    · rw [hhear, hp]
      exact .inr ⟨o, Reassembler.get?_keep_self _ _ _, hholds⟩

/-- A frame that does not come next is asked about if it breaks a row, and passed over if not. -/
theorem Shows.hear_stray (h : Shows start t request link p)
    (hrequest : t.request.toCan can.layout = .ok request) (hf : t.frames[index]? = some f)
    (hframe : Fragment.ofCan can.layout frame = .ok f) (hrow : ¬(index = 0 ∨ index = p.held)) :
    Shows start t request (link.hear (.ok frame)) (p.hear t.frames.length index) := by
  obtain ⟨hattends, hconfig, -⟩ := h.attends.hear frame
  have hears : link.reassembler.Hears t.dst := by
    simp [Reassembler.Hears, h.attends.reassembler_node]
  have hp : p.hear t.frames.length index =
      { p with held := 0, requests := p.requests + if p.held = 0 then 0 else 1 } := if_neg hrow
  obtain ⟨hfirst, hnext⟩ := not_or.1 hrow
  have hhear := h.attends.hear_eq hframe
  rcases h.holding with ⟨hzero, hnone⟩ | ⟨o, hopen, hholds⟩
  · rw [Reassembler.accept_unknown hf h.attends.reassembler_config hears hfirst hnone] at hhear
    refine ⟨hattends, by rw [hconfig, h.asks], ?_, ?_, ?_⟩
    · simp [hhear, act, h.waiting_eq, hp]
    · simp [hhear, act, h.sent_eq, hp, hzero]
    · rw [hhear, hp]
      exact .inl ⟨rfl, Reassembler.get?_close_self _ _⟩
  · rw [Reassembler.accept_broken hf h.attends.reassembler_config hears hfirst hopen hholds
      (Ne.symm hnext)] at hhear
    have hsend := h.attends.willing.send_eq request
    have hasked : (Fragmenter.retransmissionRequest link.config.localNode t.src
        t.key.transaction).toCan link.config.can.layout = .ok request := by
      rw [h.attends.node_eq, h.attends.config_eq]
      exact hrequest
    have hne := Nat.ne_of_gt hholds.pos
    refine ⟨hattends, by rw [hconfig, h.asks], ?_, ?_, ?_⟩
    · simp [hhear, act, h.asks, CanLink.request, hasked, h.waiting_eq, hp]
    · simp [hhear, act, h.asks, CanLink.request, hasked, hsend, h.sent_eq, hp, hne,
        List.replicate_succ']
    · rw [hp]
      simp only [hhear, act, h.asks, CanLink.request, hasked]
      exact .inl ⟨rfl, Reassembler.get?_close_self _ _⟩

theorem Shows.hear (h : Shows start t request link p)
    (hrequest : t.request.toCan can.layout = .ok request) (hat : t.At index frame) :
    Shows start t request (link.hear (.ok frame)) (p.hear t.frames.length index) := by
  obtain ⟨f, hf, hframe⟩ := hat
  by_cases hrow : index = 0 ∨ index = p.held
  · exact h.hear_row hf hframe hrow
  · exact h.hear_stray hrequest hf hframe hrow

end CanLink
end SpaceLink
