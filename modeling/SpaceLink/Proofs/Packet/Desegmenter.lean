import SpaceLink.Packet.Desegmenter
import SpaceLink.Proofs.Store

/-! # Whole messages joined

`IsWhole` describes the packets of one message in their order. A desegmenter that takes them in one
after the other joins them to one packet, whatever it held before, and holds nothing of them then.
-/
namespace SpaceLink.Desegmenter

def acceptAll : Desegmenter → List Packet → List (Except PacketError (Option Packet)) × Desegmenter
  | d, [] => ([], d)
  | d, p :: rest =>
    let (result, d) := d.accept p
    let (results, d) := d.acceptAll rest
    (result :: results, d)

theorem acceptAll_append (d : Desegmenter) (ps qs : List Packet) :
    d.acceptAll (ps ++ qs) =
      ((d.acceptAll ps).1 ++ ((d.acceptAll ps).2.acceptAll qs).1,
        ((d.acceptAll ps).2.acceptAll qs).2) := by
  induction ps generalizing d with
  | nil => rfl
  | cons p ps ih => simp only [List.cons_append, acceptAll, ih]

/-- The messages among the results. -/
def delivered (results : List (Except PacketError (Option Packet))) : List Packet :=
  results.filterMap fun
    | .ok message => message
    | .error _ => none

theorem delivered_append (xs ys : List (Except PacketError (Option Packet))) :
    delivered (xs ++ ys) = delivered xs ++ delivered ys := List.filterMap_append

def Clean (results : List (Except PacketError (Option Packet))) : Prop :=
  ∀ result ∈ results, ∃ message : Option Packet, result = .ok message

/-- The packets carry a message on from the one with the given count, and end it. -/
inductive Completes (key : ApplicationKey) : UInt16 → List Packet → Prop
  | last {count : UInt16} {p : Packet} :
      keyOf p = key → p.header.sequenceFlags = .last → p.header.sequenceCount = nextCount count →
      Completes key count [p]
  | continuation {count : UInt16} {p : Packet} {rest : List Packet} :
      keyOf p = key → p.header.sequenceFlags = .continuation →
      p.header.sequenceCount = nextCount count → Completes key p.header.sequenceCount rest →
      Completes key count (p :: rest)

/-- The packets are one message, from its first to its last. -/
inductive IsWhole (key : ApplicationKey) : List Packet → Prop
  | unsegmented {p : Packet} :
      keyOf p = key → p.header.sequenceFlags = .unsegmented → IsWhole key [p]
  | segmented {p : Packet} {rest : List Packet} :
      keyOf p = key → p.header.sequenceFlags = .first →
      Completes key p.header.sequenceCount rest → IsWhole key (p :: rest)

def bodies (ps : List Packet) : Bytes := ps.flatMap (·.body)

/-- The packet that a message is joined to: the first one, with the whole body. -/
def joined (first : Packet) (body : Bytes) : Packet :=
  { first with
    header := { first.header with sequenceFlags := .unsegmented }
    body := body }

def forget (d : Desegmenter) (key : ApplicationKey) : Desegmenter :=
  { d with inProgress := d.inProgress.erase key }

def keep (d : Desegmenter) (key : ApplicationKey) (m : PartialMessage) : Desegmenter :=
  { d with inProgress := d.inProgress.insert key m }

@[simp] theorem get?_keep (d : Desegmenter) (key : ApplicationKey) (m : PartialMessage) :
    (d.keep key m).inProgress.get? key = some m := Store.get?_insert_self _ _ _

@[simp] theorem keep_keep (d : Desegmenter) (key : ApplicationKey) (m n : PartialMessage) :
    (d.keep key m).keep key n = d.keep key n := by simp [keep]

@[simp] theorem forget_keep (d : Desegmenter) (key : ApplicationKey) (m : PartialMessage) :
    (d.keep key m).forget key = d.forget key := by simp [keep, forget]

theorem checkSize_of_le {d : Desegmenter} {size : Nat} (h : size ≤ d.maxMessageSize) :
    d.checkSize size = .ok () :=
  if_neg (Nat.not_lt.2 h)

theorem extend_of_next {d : Desegmenter} {p : Packet} {m : PartialMessage}
    (hcount : p.header.sequenceCount = nextCount m.lastCount)
    (hsize : m.body.size + p.body.length ≤ d.maxMessageSize) :
    d.extend p (some m) = .ok { m with
      body := m.body.append p.body
      lastCount := p.header.sequenceCount } := by
  simp only [extend, hcount, checkSize_of_le hsize, ne_eq, not_true_eq_false, if_false]
  rfl

theorem accept_last {d : Desegmenter} {key : ApplicationKey} {p : Packet} {m : PartialMessage}
    (hkey : keyOf p = key) (hflags : p.header.sequenceFlags = .last)
    (hcount : p.header.sequenceCount = nextCount m.lastCount)
    (hsize : m.body.size + p.body.length ≤ d.maxMessageSize) :
    (d.keep key m).accept p =
      (.ok (some (joined m.first (m.body.bytes ++ p.body))), d.forget key) := by
  have hextend := extend_of_next (d := d.keep key m) hcount hsize
  rw [accept, hflags, hkey]
  simp only [get?_keep, hextend]
  exact Prod.ext (by simp [finish, joined]) (forget_keep d key m)

theorem accept_continuation {d : Desegmenter} {key : ApplicationKey} {p : Packet}
    {m : PartialMessage} (hkey : keyOf p = key) (hflags : p.header.sequenceFlags = .continuation)
    (hcount : p.header.sequenceCount = nextCount m.lastCount)
    (hsize : m.body.size + p.body.length ≤ d.maxMessageSize) :
    (d.keep key m).accept p = (.ok none, d.keep key { m with
      body := m.body.append p.body
      lastCount := p.header.sequenceCount }) := by
  have hextend := extend_of_next (d := d.keep key m) hcount hsize
  rw [accept, hflags, hkey]
  simp only [get?_keep, hextend]
  exact Prod.ext rfl (keep_keep d key m _)

theorem accept_first (d : Desegmenter) {key : ApplicationKey} {p : Packet} (hkey : keyOf p = key)
    (hflags : p.header.sequenceFlags = .first) (hsize : p.body.length ≤ d.maxMessageSize) :
    d.accept p = (.ok none, d.keep key ⟨p, .of p.body, p.header.sequenceCount⟩) := by
  rw [accept, hflags, hkey]
  simp only [checkSize_of_le hsize]
  rfl

theorem accept_unsegmented (d : Desegmenter) {key : ApplicationKey} {p : Packet}
    (hkey : keyOf p = key) (hflags : p.header.sequenceFlags = .unsegmented)
    (hsize : p.body.length ≤ d.maxMessageSize) : d.accept p = (.ok (some p), d.forget key) := by
  rw [accept, hflags, hkey]
  simp only [checkSize_of_le hsize]
  rfl

/-- A later segment that does not come next in its row ends the row. -/
theorem accept_out_of_row {d : Desegmenter} {key : ApplicationKey} {p : Packet}
    (hkey : keyOf p = key)
    (hflags : p.header.sequenceFlags = .continuation ∨ p.header.sequenceFlags = .last)
    (hrow : ∀ m, d.inProgress.get? key = some m → p.header.sequenceCount ≠ nextCount m.lastCount) :
    ∃ error : PacketError, d.accept p = (.error error, d.forget key) := by
  have hextend : ∃ error : PacketError, d.extend p (d.inProgress.get? key) = .error error := by
    cases hget : d.inProgress.get? key with
    | none => exact ⟨_, rfl⟩
    | some m =>
      refine ⟨.sequenceAnomaly p.header.apid (some (nextCount m.lastCount))
        p.header.sequenceCount, ?_⟩
      simp only [extend, if_pos (hrow m hget)]
      rfl
  obtain ⟨error, herror⟩ := hextend
  refine ⟨error, ?_⟩
  rw [accept, hkey]
  rcases hflags with hflags | hflags <;> rw [hflags] <;> simp only [herror] <;> rfl

/-- The message in progress takes in the packets that complete it. -/
theorem acceptAll_completes {d : Desegmenter} {key : ApplicationKey} {m : PartialMessage}
    {ps : List Packet} (h : Completes key m.lastCount ps)
    (hsize : m.body.size + (bodies ps).length ≤ d.maxMessageSize) :
    (d.keep key m).acceptAll ps =
      (List.replicate (ps.length - 1) (.ok none) ++
        [.ok (some (joined m.first (m.body.bytes ++ bodies ps)))], d.forget key) := by
  generalize hlast : m.lastCount = count at h
  induction h generalizing m with
  | last hkey hflags hcount =>
    subst hlast
    have hle := accept_last (d := d) hkey hflags hcount (by simpa [bodies] using hsize)
    simp [acceptAll, hle, bodies]
  | @continuation _ p rest hkey hflags hcount hrest ih =>
    subst hlast
    have hbodies : (bodies (p :: rest)).length = p.body.length + (bodies rest).length := by
      simp [bodies]
    rw [hbodies] at hsize
    have hstep := accept_continuation (d := d) hkey hflags hcount (by omega)
    have hpos : 0 < rest.length := by cases hrest <;> simp
    have hlength : (p :: rest).length - 1 = (rest.length - 1) + 1 := by
      rw [List.length_cons]
      omega
    have hlater := ih (m := { m with
      body := m.body.append p.body
      lastCount := p.header.sequenceCount }) (by simp only [Gathered.append]; omega) rfl
    rw [acceptAll, hstep]
    simp only [hlater, hlength, List.replicate_succ, List.cons_append, Gathered.bytes_append,
      bodies, List.flatMap_cons, List.append_assoc]

/-- A whole message within the bound is joined, and only its last packet gives anything. -/
theorem acceptAll_whole (d : Desegmenter) {key : ApplicationKey} {p : Packet} {ps : List Packet}
    (h : IsWhole key (p :: ps)) (hsize : (bodies (p :: ps)).length ≤ d.maxMessageSize) :
    d.acceptAll (p :: ps) =
      (List.replicate ps.length (.ok none) ++ [.ok (some (joined p (bodies (p :: ps))))],
        d.forget key) := by
  cases h with
  | unsegmented hkey hflags =>
    have hself : joined p (bodies [p]) = p := by simp [joined, bodies, ← hflags]
    have hstep := d.accept_unsegmented hkey hflags (by simpa [bodies] using hsize)
    simp [acceptAll, hstep, hself]
  | segmented hkey hflags hrest =>
    have hbodies : (bodies (p :: ps)).length = p.body.length + (bodies ps).length := by
      simp [bodies]
    rw [hbodies] at hsize
    have hstep := d.accept_first hkey hflags (by omega)
    have hpos : 0 < ps.length := by cases hrest <;> simp
    have hlength : ps.length = (ps.length - 1) + 1 := by omega
    have hof : (Gathered.of p.body).size = p.body.length := by
      rw [Gathered.size_eq_length, Gathered.bytes_of]
    have hlater := acceptAll_completes (d := d) (m := ⟨p, .of p.body, p.header.sequenceCount⟩)
      hrest (by rw [hof]; exact hsize)
    rw [acceptAll, hstep]
    simp only [hlater]
    rw [hlength, List.replicate_succ, Nat.add_sub_cancel]
    simp [bodies]

end SpaceLink.Desegmenter
