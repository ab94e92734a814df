import SpaceLink.Proofs.Link.BusFailure
import SpaceLink.Proofs.Link.Repeating

/-! # Recovery from lost frames

One link sends a message over a bus that loses some of its frames, and nothing after that; the other
one asks for what it misses. The two take their turns in any order, but the sender does not answer
before all frames of the message are out. Since each side hears in order, what the receiver has heard
is always the beginning of one fixed row of places: those that come through, and then the whole
message for each answer.
-/
namespace SpaceLink

/-- What the bus has taken since an earlier state. -/
def BusAccess.sentSince (before after : BusAccess) : List CanFrame :=
  after.sent.drop before.sent.length

/-- Two links with what is under way between them. The frames of a message that are still to be sent
have their fates: whether they come through. -/
structure Exchange where
  sender : CanLink
  receiver : CanLink
  unsent : List CanFrame
  fates : List Bool
  toReceiver : List CanFrame := []
  toSender : List CanFrame := []

inductive Turn where
  | offer
  | receiver
  | sender

/-- The frames of a transaction and the request for it, as they are on the bus. -/
structure Transaction.OnBus {can : CanConfig} (t : Transaction can) (frames : List CanFrame)
    (request : CanFrame) : Prop where
  frames : List.Forall₂ t.At (List.range t.frames.length) frames
  request_to : t.request.toCan can.layout = .ok request
  request_of : Fragment.ofCan can.layout request = .ok t.request

theorem Transaction.OnBus.length_eq {can : CanConfig} {t : Transaction can}
    {frames : List CanFrame} {request : CanFrame} (h : t.OnBus frames request) :
    frames.length = t.frames.length := by
  have hlength := h.frames.length_eq
  rw [List.length_range] at hlength
  exact hlength.symm

namespace Exchange

/-- A side whose turn it is does one thing, if there is something to do. -/
def step (x : Exchange) : Turn → Exchange
  | .offer =>
    match x.unsent, x.fates with
    | frame :: unsent, fate :: fates =>
      let sender := x.sender.offer frame
      let sent := x.sender.bus.sentSince sender.bus
      { x with
        sender := sender
        unsent := unsent
        fates := fates
        toReceiver := x.toReceiver ++ if fate then sent else [] }
    | _, _ => x
  | .receiver =>
    match x.toReceiver with
    | frame :: toReceiver =>
      let receiver := x.receiver.hear (.ok frame)
      let sent := x.receiver.bus.sentSince receiver.bus
      { x with receiver := receiver, toReceiver := toReceiver, toSender := x.toSender ++ sent }
    | [] => x
  | .sender =>
    match x.unsent, x.toSender with
    | [], frame :: toSender =>
      let sender := x.sender.hear (.ok frame)
      let sent := x.sender.bus.sentSince sender.bus
      { x with sender := sender, toSender := toSender, toReceiver := x.toReceiver ++ sent }
    | _, _ => x

def run (x : Exchange) (schedule : List Turn) : Exchange := schedule.foldl step x

/-- Nothing is left to do. -/
structure Settled (x : Exchange) : Prop where
  unsent : x.unsent = []
  toReceiver : x.toReceiver = []
  toSender : x.toSender = []

/-- What an observer notes of an exchange: the place of the frame that is sent next, the places that
the receiver has heard and those that are on their way to it, and how many requests are on their way
and how many were answered. -/
structure Account where
  next : Nat := 0
  heard : List Nat := []
  flight : List Nat := []
  pending : Nat := 0
  answered : Nat := 0

def Account.requests (a : Account) : Nat := a.answered + a.pending

/-- The row of places that comes to a receiver, with so many answers to it. -/
def row (fates : List Bool) (answers : Nat) : List Nat :=
  places 0 fates ++ (List.replicate answers (List.range fates.length)).flatten

variable {can : CanConfig} {t : Transaction can} {frames : List CanFrame} {request : CanFrame}
  {start : CanLink} {fates : List Bool} {x : Exchange} {a : Account}

/-- The account is true of the exchange, in which the frames of `t` have these fates. -/
structure Agrees (t : Transaction can) (frames : List CanFrame) (request : CanFrame)
    (start : CanLink) (fates : List Bool) (x : Exchange) (a : Account) : Prop where
  length_eq : fates.length = t.frames.length
  keeps : x.sender.Keeps t frames
  shows : CanLink.Shows start t request x.receiver
    (Progress.hearAll t.frames.length {} a.heard)
  unsent : List.Forall₂ t.At (List.range' a.next x.unsent.length) x.unsent
  fates_length : x.fates.length = x.unsent.length
  flight : List.Forall₂ t.At a.flight x.toReceiver
  row_eq : a.heard ++ a.flight ++ places a.next x.fates = row fates a.answered
  pending : x.toSender = List.replicate a.pending request
  requests_eq : (Progress.hearAll t.frames.length {} a.heard).requests = a.requests

/-- How much is left to do. A frame that is to be sent counts twice, since it is heard as well, and a
request counts as much as the frames that answer it. -/
def work (x : Exchange) (total : Nat) (a : Account) : Nat :=
  2 * x.unsent.length + x.toReceiver.length + (total + 1) * x.toSender.length +
    (total + 2) * (1 - a.requests)

theorem row_succ (fates : List Bool) (answers : Nat) :
    row fates (answers + 1) = row fates answers ++ List.range fates.length := by
  simp [row, List.replicate_succ']

/-- Each answer gives one more delivery, and no more requests. -/
theorem hearAll_row (h : fates ≠ []) (answers : Nat) :
    let p := Progress.hearAll fates.length {} (row fates answers)
    p.requests = (if LossNoticed fates then 1 else 0) ∧
      p.deliveries = (if ∀ fate ∈ fates, fate = true then 1 else 0) + answers := by
  induction answers with
  | zero => simpa [row] using Progress.hearAll_places h
  | succ answers ih =>
    obtain ⟨hrequests, hdeliveries⟩ := ih
    simp only [row_succ, Progress.hearAll_append,
      Progress.hearAll_range (List.length_pos_iff.2 h)]
    exact ⟨hrequests, by rw [hdeliveries, Nat.add_assoc]⟩

theorem Agrees.hearAll_row (h : Agrees t frames request start fates x a) (answers : Nat) :
    let p := Progress.hearAll t.frames.length {} (row fates answers)
    p.requests = (if LossNoticed fates then 1 else 0) ∧
      p.deliveries = (if ∀ fate ∈ fates, fate = true then 1 else 0) + answers := by
  have hne : fates ≠ [] := by
    rintro rfl
    exact Nat.ne_of_lt t.length_frames_pos h.length_eq
  rw [← h.length_eq]
  exact Exchange.hearAll_row hne answers

/-- What has been heard gives no more requests and deliveries than all that comes. -/
theorem Agrees.counts (h : Agrees t frames request start fates x a) :
    a.requests ≤ (if LossNoticed fates then 1 else 0) ∧
      (Progress.hearAll t.frames.length {} a.heard).deliveries ≤
        (if ∀ fate ∈ fates, fate = true then 1 else 0) + a.answered := by
  obtain ⟨hrequests, hdeliveries⟩ := h.hearAll_row a.answered
  -- The row begins with what has been heard, and along it the counts only grow.
  rw [← h.row_eq, List.append_assoc, Progress.hearAll_append] at hrequests hdeliveries
  obtain ⟨hle, hle'⟩ := Progress.hearAll_le t.frames.length
    (Progress.hearAll t.frames.length {} a.heard) (a.flight ++ places a.next x.fates)
  rw [hrequests, h.requests_eq] at hle'
  rw [hdeliveries] at hle
  exact ⟨hle', hle⟩

theorem Agrees.requests_le (h : Agrees t frames request start fates x a) : a.requests ≤ 1 := by
  obtain ⟨hrequests, -⟩ := h.counts
  split at hrequests <;> omega

theorem Agrees.fates_eq_nil (h : Agrees t frames request start fates x a) (hx : x.unsent = []) :
    x.fates = [] := by
  rw [← List.length_eq_zero_iff, h.fates_length, hx]
  rfl

theorem sentSince_of_append {before after : BusAccess} {sent : List CanFrame}
    (h : after.sent = before.sent ++ sent) : before.sentSince after = sent := by
  simp [BusAccess.sentSince, h]

theorem Agrees.offer (h : Agrees t frames request start fates x a) (hunsent : x.unsent ≠ []) :
    ∃ next : Account, Agrees t frames request start fates (x.step .offer) next ∧
      (x.step .offer).work t.frames.length next < x.work t.frames.length a := by
  obtain ⟨frame, unsent, hx⟩ := List.exists_cons_of_ne_nil hunsent
  obtain ⟨fate, later, hlater⟩ : ∃ fate later, x.fates = fate :: later := by
    apply List.exists_cons_of_ne_nil
    rw [← List.length_pos_iff, h.fates_length]
    exact List.length_pos_iff.2 hunsent
  obtain ⟨hkeeps, hsent⟩ := h.keeps.offer frame
  have hfates := h.fates_length
  have hplaces := h.unsent
  rw [hx, hlater] at hfates
  rw [hx, List.length_cons, List.range'_succ] at hplaces
  obtain ⟨hat, hrest⟩ := List.forall₂_cons.1 hplaces
  have hstep : x.step .offer = { x with
      sender := x.sender.offer frame
      unsent := unsent
      fates := later
      toReceiver := x.toReceiver ++ if fate then [frame] else [] } := by
    simp only [step, hx, hlater, sentSince_of_append hsent]
  rw [hstep]
  refine ⟨{ a with next := a.next + 1, flight := a.flight ++ if fate then [a.next] else [] },
    ⟨h.length_eq, hkeeps, h.shows, hrest, by simpa using hfates, ?_, ?_, h.pending,
      h.requests_eq⟩, ?_⟩
  · apply List.rel_append h.flight
    cases fate with
    | false => exact .nil
    | true => exact .cons hat .nil
  · rw [← h.row_eq, hlater]
    cases fate <;> simp
  · have hsingle : (if fate = true then [frame] else []).length ≤ 1 := by split <;> simp
    simp only [work, Account.requests, hx, List.length_append, List.length_cons]
    omega

theorem Agrees.receiver (h : Agrees t frames request start fates x a)
    (hbus : t.OnBus frames request) (harrived : x.toReceiver ≠ []) :
    ∃ next : Account, Agrees t frames request start fates (x.step .receiver) next ∧
      (x.step .receiver).work t.frames.length next < x.work t.frames.length a := by
  obtain ⟨frame, toReceiver, hx⟩ := List.exists_cons_of_ne_nil harrived
  have hplaces := h.flight
  have hrow := h.row_eq
  rw [hx] at hplaces
  obtain ⟨place, flight, hat, hrest, hflight⟩ := List.forall₂_cons_right_iff.1 hplaces
  rw [hflight] at hrow
  have hshows := h.shows.hear hbus.request_to hat
  have hheard : Progress.hearAll t.frames.length {} (a.heard ++ [place]) =
      (Progress.hearAll t.frames.length {} a.heard).hear t.frames.length place :=
    Progress.hearAll_append _ _
  obtain ⟨-, hle, hle'⟩ :=
    Progress.hear_le t.frames.length (Progress.hearAll t.frames.length {} a.heard) place
  rw [← hheard] at hshows hle hle'
  obtain ⟨more, hmore⟩ := Nat.exists_eq_add_of_le hle
  have hsent : (x.receiver.hear (.ok frame)).bus.sent =
      x.receiver.bus.sent ++ List.replicate more request := by
    rw [hshows.sent_eq, h.shows.sent_eq, hmore, List.replicate_add, List.append_assoc]
  have hstep : x.step .receiver = { x with
      receiver := x.receiver.hear (.ok frame)
      toReceiver := toReceiver
      toSender := x.toSender ++ List.replicate more request } := by
    simp only [step, hx, sentSince_of_append hsent]
  rw [hstep]
  have hnext : Agrees t frames request start fates
      { x with
        receiver := x.receiver.hear (.ok frame)
        toReceiver := toReceiver
        toSender := x.toSender ++ List.replicate more request }
      { a with heard := a.heard ++ [place], flight := flight, pending := a.pending + more } := by
    refine ⟨h.length_eq, h.keeps, hshows, h.unsent, h.fates_length, hrest, ?_, ?_, ?_⟩
    · simpa using hrow
    · simp only [h.pending, List.replicate_add]
    · rw [hmore, h.requests_eq, Account.requests, Nat.add_assoc]
      rfl
  refine ⟨_, hnext, ?_⟩
  -- At most one request is ever made, so a new one uses up the share of the work kept for it.
  have hone := hnext.requests_le
  have hlength : x.toReceiver.length = toReceiver.length + 1 := by rw [hx, List.length_cons]
  simp only [work, Account.requests, hlength, List.length_append, List.length_replicate] at hone ⊢
  rcases Nat.le_one_iff_eq_zero_or_eq_one.1 (show more ≤ 1 by omega) with rfl | rfl
  · simp only [Nat.add_zero]
    omega
  · have hnone : a.answered = 0 ∧ a.pending = 0 := by omega
    simp only [hnone.1, hnone.2]
    rw [Nat.mul_add]
    omega

/-- The request that comes first is answered with the whole message. -/
theorem Agrees.sender (h : Agrees t frames request start fates x a)
    (hbus : t.OnBus frames request) (hsent : x.unsent = []) (hasked : x.toSender ≠ []) :
    ∃ next : Account, Agrees t frames request start fates (x.step .sender) next ∧
      (x.step .sender).work t.frames.length next < x.work t.frames.length a := by
  obtain ⟨pending, hpending⟩ : ∃ pending, a.pending = pending + 1 := by
    apply Nat.exists_eq_add_one_of_ne_zero
    intro hzero
    exact hasked (by rw [h.pending, hzero]; rfl)
  have hx : x.toSender = request :: List.replicate pending request := by
    rw [h.pending, hpending, List.replicate_succ]
  have hfates := h.fates_eq_nil hsent
  obtain ⟨hkeeps, hanswer⟩ := h.keeps.hear_request hbus.request_of
  have hstep : x.step .sender = { x with
      sender := x.sender.hear (.ok request)
      toSender := List.replicate pending request
      toReceiver := x.toReceiver ++ frames } := by
    simp only [step, hsent, hx, sentSince_of_append hanswer]
  have hrow := h.row_eq
  have hrequests := h.requests_eq
  rw [hfates, places_nil, List.append_nil] at hrow
  rw [hstep]
  refine ⟨{ a with
    flight := a.flight ++ List.range t.frames.length
    pending := pending
    answered := a.answered + 1 },
    ⟨h.length_eq, hkeeps, h.shows, h.unsent, h.fates_length, ?_, ?_, rfl, ?_⟩, ?_⟩
  · exact List.rel_append h.flight hbus.frames
  · rw [hfates, places_nil, List.append_nil, row_succ, ← hrow, h.length_eq, List.append_assoc]
  · simp only [Account.requests] at hrequests ⊢
    omega
  · simp only [work, Account.requests, hx, hpending, List.length_append, List.length_cons,
      List.length_replicate, hbus.length_eq]
    have hsame : a.answered + 1 + pending = a.answered + (pending + 1) := by omega
    rw [hsame, Nat.mul_succ]
    omega

theorem Agrees.step (h : Agrees t frames request start fates x a) (hbus : t.OnBus frames request)
    (turn : Turn) :
    ∃ next : Account, Agrees t frames request start fates (x.step turn) next := by
  cases turn with
  | offer =>
    by_cases hunsent : x.unsent = []
    · exact ⟨a, by simpa only [Exchange.step, hunsent] using h⟩
    · obtain ⟨next, hnext, -⟩ := h.offer hunsent
      exact ⟨next, hnext⟩
  | receiver =>
    by_cases harrived : x.toReceiver = []
    · exact ⟨a, by simpa only [Exchange.step, harrived] using h⟩
    · obtain ⟨next, hnext, -⟩ := h.receiver hbus harrived
      exact ⟨next, hnext⟩
  | sender =>
    cases hunsent : x.unsent with
    | cons frame unsent => exact ⟨a, by simpa only [Exchange.step, hunsent] using h⟩
    | nil =>
      by_cases hasked : x.toSender = []
      · exact ⟨a, by simpa only [Exchange.step, hunsent, hasked] using h⟩
      · obtain ⟨next, hnext, -⟩ := h.sender hbus hunsent hasked
        exact ⟨next, hnext⟩

theorem Agrees.run (h : Agrees t frames request start fates x a) (hbus : t.OnBus frames request)
    (schedule : List Turn) :
    ∃ next : Account, Agrees t frames request start fates (x.run schedule) next := by
  induction schedule generalizing x a with
  | nil => exact ⟨a, h⟩
  | cons turn schedule ih =>
    obtain ⟨next, hnext⟩ := h.step hbus turn
    exact ih hnext

/-- As long as something is left to do, there is a turn that leaves less. -/
theorem Agrees.settles (h : Agrees t frames request start fates x a)
    (hbus : t.OnBus frames request) : ∃ more : List Turn, (x.run more).Settled := by
  induction hwork : x.work t.frames.length a using Nat.strong_induction_on generalizing x a with
  | _ amount ih =>
    subst hwork
    have hturn : ∀ turn : Turn, (∃ next : Account,
        Agrees t frames request start fates (x.step turn) next ∧
          (x.step turn).work t.frames.length next < x.work t.frames.length a) →
        ∃ more : List Turn, (x.run more).Settled := by
      rintro turn ⟨next, hnext, hless⟩
      obtain ⟨more, hmore⟩ := ih _ hless hnext rfl
      exact ⟨turn :: more, hmore⟩
    -- While there is something to send, to hear or to answer, the turn for it takes from the work.
    by_cases hunsent : x.unsent = []
    · by_cases harrived : x.toReceiver = []
      · by_cases hasked : x.toSender = []
        · exact ⟨[], hunsent, harrived, hasked⟩
        · exact hturn .sender (h.sender hbus hunsent hasked)
      · exact hturn .receiver (h.receiver hbus harrived)
    · exact hturn .offer (h.offer hunsent)

/-- In the end all that comes has been heard. -/
theorem Agrees.heard_of_settled (h : Agrees t frames request start fates x a) (hx : x.Settled) :
    a.heard = row fates a.answered ∧ a.pending = 0 := by
  have hflight : a.flight = [] := by
    have hplaces := h.flight
    rw [hx.toReceiver] at hplaces
    exact List.forall₂_nil_right_iff.1 hplaces
  have hrow := h.row_eq
  rw [h.fates_eq_nil hx.unsent, hflight, places_nil, List.append_nil, List.append_nil] at hrow
  have hpending := h.pending
  rw [hx.toSender] at hpending
  exact ⟨hrow, by simpa using congrArg List.length hpending.symm⟩

theorem Agrees.deliveries_of_settled (h : Agrees t frames request start fates x a)
    (hx : x.Settled) :
    (Progress.hearAll t.frames.length {} a.heard).deliveries =
      (if ∀ fate ∈ fates, fate = true then 1 else 0) + if LossNoticed fates then 1 else 0 := by
  obtain ⟨hheard, hpending⟩ := h.heard_of_settled hx
  obtain ⟨hrequests, hdeliveries⟩ := h.hearAll_row a.answered
  rw [← hheard] at hrequests hdeliveries
  have hanswered := h.requests_eq
  rw [hrequests, Account.requests, hpending, Nat.add_zero] at hanswered
  rw [hdeliveries, hanswered]

theorem agrees_start {sender receiver : CanLink} (hbus : t.OnBus frames request)
    (hkeeps : sender.Keeps t frames) (hattends : receiver.Attends can t.dst)
    (hasks : receiver.config.requestRetransmission = true)
    (hidle : receiver.reassembler.buffers.get? t.key = none)
    (hfates : fates.length = frames.length) :
    Agrees t frames request receiver fates
      { sender := sender, receiver := receiver, unsent := frames, fates := fates } {} where
  length_eq := hfates.trans hbus.length_eq
  keeps := hkeeps
  shows := ⟨hattends, hasks, (List.append_nil _).symm, (List.append_nil _).symm, .inl ⟨rfl, hidle⟩⟩
  unsent := by
    have hframes := hbus.frames
    rwa [List.range_eq_range', ← hbus.length_eq] at hframes
  fates_length := hfates
  flight := .nil
  row_eq := (List.append_nil _).symm
  pending := rfl
  requests_eq := rfl

/-- What the receiver has done by any time, and what it has done in the end. -/
theorem Agrees.outcome (h : Agrees t frames request start fates x a) :
    ∃ deliveries requests : Nat, deliveries ≤ 1 ∧ requests ≤ 1 ∧
      x.receiver.inbox.waiting = start.inbox.waiting ++
        List.replicate deliveries (CanLink.messageOf t.key t.payload) ∧
      x.receiver.bus.sent = start.bus.sent ++ List.replicate requests request ∧
      (x.Settled → (deliveries = 1 ↔ (∀ fate ∈ fates, fate = true) ∨ LossNoticed fates)) := by
  have hapart : (∀ fate ∈ fates, fate = true) → ¬LossNoticed fates :=
    fun hall hnoticed => by cases hall false hnoticed.exists_lost
  obtain ⟨hrequests, hdeliveries⟩ := h.counts
  refine ⟨_, _, ?_, ?_, h.shows.waiting_eq, h.shows.sent_eq, ?_⟩
  · have hanswered : a.answered ≤ a.requests := Nat.le_add_right _ _
    split_ifs at hrequests hdeliveries with hnoticed hall
    · exact absurd hnoticed (hapart hall)
    all_goals omega
  · rw [h.requests_eq]
    exact h.requests_le
  · intro hsettled
    rw [h.deliveries_of_settled hsettled]
    by_cases hall : ∀ fate ∈ fates, fate = true
    · rw [if_pos hall, if_neg (hapart hall)]
      exact iff_of_true rfl (.inl hall)
    · by_cases hnoticed : LossNoticed fates
      · rw [if_neg hall, if_pos hnoticed]
        exact iff_of_true rfl (.inr hnoticed)
      · rw [if_neg hall, if_neg hnoticed]
        exact iff_of_false Nat.zero_ne_one (not_or.2 ⟨hall, hnoticed⟩)

end Exchange

namespace CanLink

/-- One link sends a message that fits its layout, and some frames of it are lost. Its peer, with no
buffer for the message, asks for it once at most and hands it over once at most, with the bytes that
were sent, the nodes and the number of the transaction. It does hand it over in the end if no frame
was lost, or if the loss was noticed; and there is an end. -/
theorem recovers_lost_frames {busA busB : BusAccess} {configA configB : CanLinkConfig}
    {startA startB : CanLink} (hstartA : CanLink.open busA configA = .ok startA)
    (hstartB : CanLink.open busB configB = .ok startB) (stepsA stepsB : List CanStep)
    (hopenA : (startA.run stepsA).closed = false) (hopenB : (startB.run stepsB).closed = false)
    (hbusA : (startA.run stepsA).bus.Willing) (hbusB : (startB.run stepsB).bus.Willing)
    (hcan : configB.can = configA.can) (hpeer : configA.peerNode = configB.localNode)
    (hcache : 1 ≤ configA.resendCache) (hasks : configB.requestRetransmission = true)
    (hidle : (startB.run stepsB).reassembler.buffers.get? (startA.run stepsA).nextKey = none)
    {body : Bytes} (hfits :
      Pieces.count configA.can.maxFrameData body.length ≤ configA.can.layout.maxFrames) :
    let a := startA.run stepsA
    let b := startB.run stepsB
    ∃ (frames : List CanFrame) (sender : CanLink) (request : CanFrame),
      frames.length = Pieces.count configA.can.maxFrameData body.length ∧
      a.prepare body = (.ok frames, sender) ∧
      a.send body = (.ok (), frames.foldl offer sender) ∧
      Fragment.ofCan configA.can.layout request = .ok (Fragmenter.retransmissionRequest
        configB.localNode configA.localNode a.nextKey.transaction) ∧
      let message : Message := {
        source := canAddress configA.localNode
        body := body
        properties := [("dst_node", s!"{configB.localNode.toNat}"),
          ("source", canAddress configA.localNode), ("src_node", s!"{configA.localNode.toNat}"),
          ("transaction_id", s!"{a.nextKey.transaction.toNat}")] }
      ∀ fates : List Bool, fates.length = frames.length → ∀ schedule : List Turn,
        let x := Exchange.run { sender := sender, receiver := b, unsent := frames, fates := fates }
          schedule
        (∃ deliveries requests : Nat, deliveries ≤ 1 ∧ requests ≤ 1 ∧
          x.receiver.inbox.waiting =
            b.inbox.waiting ++ List.replicate deliveries message ∧
          x.receiver.bus.sent = b.bus.sent ++ List.replicate requests request ∧
          (x.Settled →
            (deliveries = 1 ↔ (∀ fate ∈ fates, fate = true) ∨ LossNoticed fates))) ∧
        ∃ more : List Turn, (x.run more).Settled := by
  intro a b
  have hservesA : a.Serves configA := (open_eq_ok hstartA).1.run stepsA
  have hservesB : b.Serves configB := (open_eq_ok hstartB).1.run stepsB
  have hattendsA := hservesA.attends (listens_run hstartA hopenA) hbusA
  have hattendsB := hservesB.attends (listens_run hstartB hopenB) hbusB
  obtain ⟨t, frames, hpayload, hsrc, hdst, hkey, hframes, hprepare⟩ := hservesA.prepare_eq hfits
  obtain ⟨request, hto, hof⟩ := t.exists_request (by rw [hsrc]; exact hservesA.valid.local_le)
    (by rw [hdst]; exact hservesA.valid.peer_le)
  have hbus : t.OnBus frames request := ⟨hframes, hto, hof⟩
  have hdepth : a.cache.depth ≠ 0 := by
    rw [hservesA.cache_depth]
    omega
  have hcached := ResendCache.find?_insert_self hdepth ⟨t.key.transaction, configA.peerNode, frames⟩
  rw [← hsrc] at hattendsA
  rw [hcan, ← hpeer, ← hdst] at hattendsB
  have hkeeps : CanLink.Keeps { a with
      fragmenter := t.after
      cache := a.cache.insert ⟨t.key.transaction, configA.peerNode, frames⟩ } t frames := by
    refine ⟨⟨hattendsA.listens, hattendsA.willing, hattendsA.config_eq, hattendsA.node_eq,
      hattendsA.reassembler_config, hattendsA.reassembler_node⟩, ?_⟩
    rw [hdst]
    exact hcached
  refine ⟨frames, _, request, ?_, hprepare, send_eq_offers hopenA hbusA hprepare, ?_, ?_⟩
  · rw [hbus.length_eq, t.length_frames, Transaction.total, hpayload]
  · rw [← hkey, hof, Transaction.request, hsrc, hdst, hpeer]
  intro message fates hfates schedule
  have hstart := Exchange.agrees_start hbus hkeeps hattendsB
    (by rw [hservesB.config_eq, hasks]) (by rw [hkey]; exact hidle) hfates
  obtain ⟨account, hend⟩ := hstart.run hbus schedule
  have hmessage : message = messageOf t.key t.payload := by
    rw [messageOf_eq, hkey, hpayload, hservesA.src_nextKey, hservesA.dst_nextKey, hpeer]
  rw [hmessage]
  exact ⟨hend.outcome, hend.settles hbus⟩

/-- The second of three frames is lost. The third one tells, and all of them come again. -/
theorem recovers_lost_middle :
    let configA : CanLinkConfig := .of 1 2 ⟨.extended, 2⟩
    let configB : CanLinkConfig :=
      { CanLinkConfig.of 2 1 ⟨.extended, 2⟩ with requestRetransmission := true }
    ∃ (a b sender : CanLink) (frames : List CanFrame) (schedule : List Turn),
      CanLink.open {} configA = .ok a ∧ CanLink.open {} configB = .ok b ∧
      a.prepare [1, 2, 3, 4, 5] = (.ok frames, sender) ∧
      let x := Exchange.run
        { sender := sender, receiver := b, unsent := frames, fates := [true, false, true] } schedule
      x.receiver.inbox.waiting = [⟨"malcan://1", [1, 2, 3, 4, 5],
          [("dst_node", "2"), ("source", "malcan://1"), ("src_node", "1"),
            ("transaction_id", "0")]⟩] ∧
        x.receiver.bus.sent.length ≤ 1 := by
  intro configA configB
  obtain ⟨a, ha⟩ : ∃ a : CanLink, CanLink.open {} configA = .ok a := ⟨_, rfl⟩
  obtain ⟨b, hb⟩ : ∃ b : CanLink, CanLink.open {} configB = .ok b := ⟨_, rfl⟩
  have hwilling : ∀ {config : CanLinkConfig} {link : CanLink},
      CanLink.open {} config = .ok link → link.bus.Willing ∧ link.closed = false := by
    intro config link h
    obtain ⟨-, hbus, -, hopen⟩ := open_eq_ok h
    rw [hbus]
    exact ⟨fun _ _ => rfl, hopen⟩
  have hfits : Pieces.count configA.can.maxFrameData ([1, 2, 3, 4, 5] : Bytes).length ≤
      configA.can.layout.maxFrames := by decide
  obtain ⟨frames, sender, request, hlength, hprepare, -, -, hruns⟩ :=
    recovers_lost_frames ha hb [] [] (hwilling ha).2 (hwilling hb).2 (hwilling ha).1
      (hwilling hb).1 rfl rfl (by decide) rfl (by cases hb; rfl) hfits
  have hfates : [true, false, true].length = frames.length := by
    rw [hlength]
    decide
  obtain ⟨-, schedule, hsettled⟩ := hruns [true, false, true] hfates []
  obtain ⟨⟨deliveries, requests, -, hrequests, hwaiting, hsent, hend⟩, -⟩ :=
    hruns [true, false, true] hfates schedule
  have hone : deliveries = 1 := (hend hsettled).2 (.inr (by decide))
  have hnumber : (a.run []).nextKey.transaction = 0 := by
    cases ha
    decide +kernel
  have hempty : (b.run []).inbox.waiting = [] ∧ (b.run []).bus.sent = [] := by
    cases hb
    exact ⟨rfl, rfl⟩
  rw [hone, hnumber, hempty.1] at hwaiting
  rw [hempty.2, List.nil_append] at hsent
  refine ⟨a, b, sender, frames, schedule, ha, hb, hprepare, hwaiting.trans (by decide +kernel), ?_⟩
  have hcount := congrArg List.length hsent
  rw [List.length_replicate] at hcount
  exact Nat.le_trans (Nat.le_of_eq hcount) hrequests

end CanLink
end SpaceLink
