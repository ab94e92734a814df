import Mathlib.Logic.Function.Iterate
import SpaceLink.Proofs.Loss
import SpaceLink.Proofs.Packet.Segmenter

/-! # Lost packets

Some packets of a segmenter do not arrive. As long as less than a whole round of counts is lost in a
row, a desegmenter notices every loss inside a message: it hands over the messages that arrive whole,
and nothing of the others.
-/
namespace SpaceLink

namespace Desegmenter

theorem toNat_nextCount (count : UInt16) : (nextCount count).toNat = (count.toNat + 1) % 16384 := by
  have hwrap : Header.countWrap.toNat = 16384 := rfl
  have hcount := count.toNat_lt
  rw [nextCount, UInt64.toNat_toUInt16, UInt64.toNat_mod, UInt64.toNat_add, UInt16.toNat_toUInt64,
    hwrap, UInt64.toNat_one]
  omega

theorem toNat_iterate_nextCount (count : UInt16) (n : Nat) :
    (nextCount^[n + 1] count).toNat = (count.toNat + (n + 1)) % 16384 := by
  induction n with
  | zero => exact toNat_nextCount count
  | succ n ih =>
    rw [Function.iterate_succ_apply', toNat_nextCount, ih]
    omega

/-- A count comes again only after a whole round. -/
theorem iterate_nextCount_ne (count : UInt16) {gap : Nat} (hpos : 0 < gap) (hlt : gap < 16384) :
    nextCount^[gap + 1] count ≠ nextCount count := by
  intro heq
  have hnat := congrArg UInt16.toNat heq
  rw [toNat_iterate_nextCount, toNat_nextCount] at hnat
  omega

/-- The message in progress, if there is one, broke off `gap` packets before the one counted
last. -/
def Behind (key : ApplicationKey) (count : UInt16) (gap : Nat) (d : Desegmenter) : Prop :=
  ∀ m, d.inProgress.get? key = some m → 0 < gap ∧ nextCount^[gap] m.lastCount = count

/-- After the packets, `messages` have been handed over, and whatever is in progress has broken
off. -/
structure Leaves (d : Desegmenter) (ps : List Packet) (key : ApplicationKey) (count : UInt16)
    (later : List Bool) (messages : List Packet) : Prop where
  delivered_eq : delivered (d.acceptAll ps).1 = messages
  behind : ∃ gap, Behind key count gap (d.acceptAll ps).2 ∧ NeverLoses 16384 gap later
  bound_eq : (d.acceptAll ps).2.maxMessageSize = d.maxMessageSize

section Row
variable {d : Desegmenter} {key : ApplicationKey} {count : UInt16} {gap : Nat}
  {later : List Bool} {messages : List Packet}

theorem behind_forget (d : Desegmenter) (key : ApplicationKey) (count : UInt16) (gap : Nat) :
    Behind key count gap (d.forget key) := by
  intro m hget
  rw [forget, Store.get?_erase_self] at hget
  cases hget

theorem behind_keep (d : Desegmenter) (key : ApplicationKey) (m : PartialMessage) :
    Behind key (nextCount m.lastCount) 1 (d.keep key m) := by
  intro other hget
  rw [get?_keep] at hget
  cases hget
  exact ⟨Nat.one_pos, rfl⟩

theorem Behind.lost (h : Behind key count gap d) : Behind key (nextCount count) (gap + 1) d := by
  intro m hget
  obtain ⟨-, hcount⟩ := h m hget
  exact ⟨Nat.succ_pos gap, by rw [Function.iterate_succ_apply', hcount]⟩

/-- The next packet is not the one that the message in progress waits for. -/
theorem Behind.refuses (h : Behind key count gap d) (hgap : gap < 16384) {p : Packet}
    (hkey : keyOf p = key)
    (hflags : p.header.sequenceFlags = .continuation ∨ p.header.sequenceFlags = .last)
    (hcount : p.header.sequenceCount = nextCount count) :
    ∃ error : PacketError, d.accept p = (.error error, d.forget key) := by
  refine accept_out_of_row hkey hflags ?_
  intro m hget
  obtain ⟨hpos, hbroken⟩ := h m hget
  rw [hcount, ← hbroken, ← Function.iterate_succ_apply' nextCount]
  exact iterate_nextCount_ne _ hpos hgap

theorem Leaves.nil (h : Behind key count gap d) (hgap : NeverLoses 16384 gap later) :
    Leaves d [] key count later [] := ⟨rfl, ⟨gap, h, hgap⟩, rfl⟩

theorem Leaves.cons {p : Packet} {ps : List Packet} {next : Desegmenter}
    {result : Except PacketError (Option Packet)} (haccept : d.accept p = (result, next))
    (hbound : next.maxMessageSize = d.maxMessageSize) (h : Leaves next ps key count later messages) :
    Leaves d (p :: ps) key count later (delivered [result] ++ messages) := by
  have hall : d.acceptAll (p :: ps) =
      (result :: (next.acceptAll ps).1, (next.acceptAll ps).2) := by
    rw [acceptAll, haccept]
  refine ⟨?_, ?_, ?_⟩
  · rw [hall, ← h.delivered_eq, ← delivered_append]
    rfl
  · rw [hall]
    exact h.behind
  · rw [hall]
    exact h.bound_eq.trans hbound

/-- Once a packet of a message is missing, nothing comes of those behind it. -/
theorem leaves_behind {ps : List Packet} (h : Completes key count ps) {kept : List Bool}
    (hkept : kept.length = ps.length) (hbehind : Behind key count gap d)
    (hgap : NeverLoses 16384 gap (kept ++ later)) :
    Leaves d (surviving ps kept) key (nextCount^[ps.length] count) later [] := by
  induction h generalizing d gap kept with
  | @last count p hkey hflags hcount =>
    obtain ⟨mark, rfl⟩ := List.length_eq_one_iff.1 hkept
    cases mark with
    | false => exact .nil hbehind.lost hgap.lost
    | true =>
      obtain ⟨error, haccept⟩ := hbehind.refuses hgap.gap_lt hkey (.inr hflags) hcount
      exact .cons haccept rfl (.nil (behind_forget _ _ _ 0) hgap.survived)
  | @continuation count p rest hkey hflags hcount hrest ih =>
    obtain ⟨mark, kept, rfl⟩ := List.exists_cons_of_length_eq_add_one hkept
    have hlength : kept.length = rest.length := by simpa using hkept
    rw [List.length_cons, Function.iterate_succ_apply, ← hcount]
    cases mark with
    | false =>
      have hlost := hbehind.lost
      rw [← hcount] at hlost
      exact ih hlength hlost hgap.lost
    | true =>
      obtain ⟨error, haccept⟩ := hbehind.refuses hgap.gap_lt hkey (.inl hflags) hcount
      exact .cons haccept rfl (ih hlength (behind_forget _ _ _ 0) hgap.survived)

/-- A message in progress is handed over if nothing of the rest of it is missing. -/
theorem leaves_started {ps : List Packet} {m : PartialMessage} (h : Completes key m.lastCount ps)
    (hsize : m.body.size + (bodies ps).length ≤ d.maxMessageSize) {kept : List Bool}
    (hkept : kept.length = ps.length) (hgap : NeverLoses 16384 0 (kept ++ later)) :
    Leaves (d.keep key m) (surviving ps kept) key (nextCount^[ps.length] m.lastCount) later
      (if kept.all id then [joined m.first (m.body.bytes ++ bodies ps)] else []) := by
  generalize hlast : m.lastCount = count at h
  induction h generalizing m kept with
  | @last _ p hkey hflags hcount =>
    subst hlast
    obtain ⟨mark, rfl⟩ := List.length_eq_one_iff.1 hkept
    cases mark with
    | false => exact .nil (behind_keep d key m) hgap.lost
    | true =>
      have haccept := accept_last (d := d) hkey hflags hcount (by simpa [bodies] using hsize)
      have hbodies : bodies [p] = p.body := by simp [bodies]
      rw [hbodies]
      exact .cons haccept rfl (.nil (behind_forget _ _ _ 0) hgap.survived)
  | @continuation _ p rest hkey hflags hcount hrest ih =>
    subst hlast
    obtain ⟨mark, kept, rfl⟩ := List.exists_cons_of_length_eq_add_one hkept
    have hlength : kept.length = rest.length := by simpa using hkept
    have hbodies : bodies (p :: rest) = p.body ++ bodies rest := by simp [bodies]
    rw [List.length_cons, Function.iterate_succ_apply, ← hcount]
    cases mark with
    | false =>
      have hbroken := behind_keep d key m
      rw [← hcount] at hbroken
      exact leaves_behind hrest hlength hbroken hgap.lost
    | true =>
      rw [hbodies, List.length_append] at hsize
      have haccept := accept_continuation (d := d) hkey hflags hcount (by omega)
      have hlater := ih (m := { m with
        body := m.body.append p.body
        lastCount := p.header.sequenceCount }) (by simp only [Gathered.append]; omega) hlength
        hgap.survived rfl
      have hall : (true :: kept).all id = kept.all id := rfl
      rw [hbodies, hall, ← List.append_assoc, ← Gathered.bytes_append]
      exact .cons haccept rfl hlater

/-- A whole message is handed over if nothing of it is missing, whatever broke off before. -/
theorem leaves_whole {p : Packet} {ps : List Packet} (h : IsWhole key (p :: ps))
    (hfirst : p.header.sequenceCount = nextCount count)
    (hsize : (bodies (p :: ps)).length ≤ d.maxMessageSize) {kept : List Bool}
    (hkept : kept.length = (p :: ps).length) (hbehind : Behind key count gap d)
    (hgap : NeverLoses 16384 gap (kept ++ later)) :
    Leaves d (surviving (p :: ps) kept) key (nextCount^[(p :: ps).length] count) later
      (if kept.all id then [joined p (bodies (p :: ps))] else []) := by
  obtain ⟨mark, kept, rfl⟩ := List.exists_cons_of_length_eq_add_one hkept
  have hlength : kept.length = ps.length := by simpa using hkept
  have hbodies : bodies (p :: ps) = p.body ++ bodies ps := by simp [bodies]
  have hlost := hbehind.lost
  rw [hbodies, List.length_append] at hsize
  rw [hbodies, List.length_cons, Function.iterate_succ_apply, ← hfirst]
  rw [← hfirst] at hlost
  cases h with
  | unsegmented hkey hflags =>
    cases List.length_eq_zero_iff.1 hlength
    cases mark with
    | false => exact .nil hlost hgap.lost
    | true =>
      have haccept := d.accept_unsegmented hkey hflags (by omega)
      have hself : joined p (p.body ++ bodies []) = p := by simp [joined, bodies, ← hflags]
      rw [hself]
      exact .cons haccept rfl (.nil (behind_forget _ _ _ 0) hgap.survived)
  | segmented hkey hflags hrest =>
    cases mark with
    | false => exact leaves_behind hrest hlength hlost hgap.lost
    | true =>
      have haccept := d.accept_first hkey hflags (by omega)
      have hof : (Gathered.of p.body).size = p.body.length := by
        rw [Gathered.size_eq_length, Gathered.bytes_of]
      have hlater := leaves_started (d := d) (m := ⟨p, .of p.body, p.header.sequenceCount⟩) hrest
        (by rw [hof]; exact hsize) hlength hgap.survived
      rw [Gathered.bytes_of] at hlater
      exact .cons haccept rfl hlater

theorem Leaves.append {ps qs : List Packet} {next : List Bool} {last : UInt16}
    {more : List Packet} (h : Leaves d ps key count next messages)
    (hmore : Leaves (d.acceptAll ps).2 qs key last later more) :
    Leaves d (ps ++ qs) key last later (messages ++ more) := by
  have hall := acceptAll_append d ps qs
  refine ⟨?_, ?_, ?_⟩
  · rw [hall, delivered_append, h.delivered_eq, hmore.delivered_eq]
  · rw [hall]
    exact hmore.behind
  · rw [hall]
    exact hmore.bound_eq.trans h.bound_eq

end Row

end Desegmenter

namespace Segmenter
open Desegmenter

variable {s : Segmenter}

theorem toUInt16_valueAfter (h : s.Steady) (j : Nat) :
    (valueAfter s.counter.wrap s.counter.current j).toUInt16 =
      nextCount^[j + 1] s.counter.current.toUInt16 := by
  apply UInt16.toNat_inj.1
  rw [h.toNat_count, toNat_iterate_nextCount, UInt64.toNat_toUInt16]
  omega

/-- A segmenter stands at the count of the last packet that it cut. -/
theorem current_segment (h : s.Steady) {body : Bytes} (hbody : body.length < 2 ^ 63) :
    (s.segment body).2.counter.current.toUInt16 =
      nextCount^[(s.segment body).1.length] s.counter.current.toUInt16 := by
  have hpos : 0 < (s.segment body).1.length := by
    rw [length_segment h hbody]
    exact Pieces.count_pos _ _
  obtain ⟨n, hn⟩ := Nat.exists_eq_add_one_of_ne_zero hpos.ne'
  apply UInt16.toNat_inj.1
  rw [hn, toNat_iterate_nextCount, UInt64.toNat_toUInt16, toNat_current_segment h hbody,
    UInt64.toNat_toUInt16, hn]
  omega

theorem head_segment (h : s.Steady) {body : Bytes} (hbody : body.length < 2 ^ 63) {p : Packet}
    {ps : List Packet} (hpackets : (s.segment body).1 = p :: ps) :
    p.header.sequenceCount = nextCount s.counter.current.toUInt16 := by
  rw [segment_eq h hbody] at hpackets
  cases hcut : Pieces.cut s.maxBody body with
  | nil => simp [hcut] at hpackets
  | cons piece rest =>
    rw [hcut, List.mapIdx_cons] at hpackets
    obtain ⟨rfl, -⟩ := List.cons.inj hpackets
    exact toUInt16_valueAfter h 0

/-- What a desegmenter makes of what is left of one message. -/
theorem leaves_segment (h : s.Steady) {body : Bytes} (hbody : body.length < 2 ^ 63)
    {d : Desegmenter} (hsize : body.length ≤ d.maxMessageSize) {kept later : List Bool}
    (hkept : kept.length = (s.segment body).1.length) {gap : Nat}
    (hbehind : Behind s.key s.counter.current.toUInt16 gap d)
    (hgap : NeverLoses 16384 gap (kept ++ later)) :
    ∃ m : Packet, keyOf m = s.key ∧ m.body = body ∧
      Leaves d (surviving (s.segment body).1 kept) s.key
        (s.segment body).2.counter.current.toUInt16 later (if kept.all id then [m] else []) := by
  have hwhole := isWhole_segment h (relays_id s) hbody
  have hbodies := bodies_segment h (relays_id s) hbody
  rw [List.map_id] at hwhole hbodies
  rw [current_segment h hbody]
  cases hpackets : (s.segment body).1 with
  | nil =>
    rw [hpackets] at hwhole
    cases hwhole
  | cons p ps =>
    rw [hpackets] at hwhole hbodies hkept
    have hkey : keyOf p = s.key := by cases hwhole <;> assumption
    have hleaves := leaves_whole hwhole (head_segment h hbody hpackets) (by rw [hbodies]; exact hsize)
      hkept hbehind hgap
    rw [hbodies] at hleaves
    exact ⟨joined p body, hkey, rfl, hleaves⟩

end Segmenter

/-- A message, and which of its packets arrive. -/
structure Transfer where
  body : Bytes
  kept : List Bool

namespace Transfer

def isWhole (t : Transfer) : Bool := t.kept.all id

end Transfer

namespace Segmenter
open Desegmenter

/-- The packets that arrive of messages cut one after the other. -/
def survivors : Segmenter → List Transfer → List Packet
  | _, [] => []
  | s, t :: rest =>
    surviving (s.segment t.body).1 t.kept ++ survivors (s.segment t.body).2 rest

theorem leaves_survivors {s : Segmenter} (h : s.Steady) {transfers : List Transfer}
    (hkept : ∀ t ∈ transfers, t.kept.length = Pieces.count s.maxBody t.body.length)
    {d : Desegmenter}
    (hbodies : ∀ t ∈ transfers, t.body.length < 2 ^ 63 ∧ t.body.length ≤ d.maxMessageSize)
    {gap : Nat} (hbehind : Behind s.key s.counter.current.toUInt16 gap d)
    (hgap : NeverLoses 16384 gap (transfers.flatMap (·.kept))) :
    ∃ (count : UInt16) (messages : List Packet),
      Leaves d (s.survivors transfers) s.key count [] messages ∧
        messages.map (fun m => (keyOf m, m.body)) =
          (transfers.filter (·.isWhole)).map fun t => (s.key, t.body) := by
  induction transfers generalizing s d gap with
  | nil => exact ⟨_, [], .nil hbehind hgap, rfl⟩
  | cons t transfers ih =>
    obtain ⟨hmarks, hkept⟩ := List.forall_mem_cons.1 hkept
    obtain ⟨⟨hlength, hsize⟩, hbodies⟩ := List.forall_mem_cons.1 hbodies
    rw [← length_segment h hlength] at hmarks
    obtain ⟨m, hkey, hbody, hfirst⟩ := leaves_segment h hlength hsize hmarks hbehind hgap
    obtain ⟨gap, hbehind, hgap⟩ := hfirst.behind
    rw [← hfirst.bound_eq] at hbodies
    obtain ⟨count, messages, hlater, hmessages⟩ := ih (h.segment t.body) hkept hbodies hbehind hgap
    refine ⟨count, _, hfirst.append hlater, ?_⟩
    rw [List.map_append, hmessages]
    by_cases hwhole : t.isWhole = true
    · have hall : t.kept.all id = true := hwhole
      rw [if_pos hall, List.filter_cons_of_pos hwhole, List.map_cons, List.map_nil, hkey, hbody]
      rfl
    · have hall : ¬t.kept.all id = true := hwhole
      rw [if_neg hall, List.filter_cons_of_neg hwhole]
      rfl

/-- Any packets may be lost of messages that one segmenter cuts, from whatever count on, as long as
no 16384 are lost in a row. A fresh desegmenter hands over the messages of which nothing is lost, in
their order, each once and whole, and nothing else. -/
theorem delivers_whole_transfers {template : Header} {qualifier : UInt16} {maxBody : Nat}
    {counter : SequenceCounter} (hcounter : counter.wrap = Header.countWrap) {s : Segmenter}
    (hs : s = { Segmenter.of template qualifier maxBody with counter := counter }) {max : Nat}
    {transfers : List Transfer}
    (hkept : ∀ t ∈ transfers, t.kept.length = Pieces.count s.maxBody t.body.length)
    (hbodies : ∀ t ∈ transfers, t.body.length < 2 ^ 63 ∧ t.body.length ≤ max)
    (hgap : ¬List.replicate 16384 false <:+: transfers.flatMap (·.kept)) :
    (delivered ((Desegmenter.of max).acceptAll (s.survivors transfers)).1).map
        (fun m => (keyOf m, m.body)) =
      (transfers.filter (·.isWhole)).map fun t => ((qualifier, template.apid), t.body) := by
  have hsteady : s.Steady := by
    rw [hs]
    exact steady_of template qualifier maxBody hcounter
  have hfresh : Behind s.key s.counter.current.toUInt16 0 (Desegmenter.of max) := by
    intro m hget
    cases hget
  obtain ⟨count, messages, hleaves, hmessages⟩ :=
    leaves_survivors hsteady hkept hbodies hfresh hgap
  rw [hleaves.delivered_eq, hmessages, hs]
  rfl

/-- The end of one message and the beginning of the next are lost, where the counts wrap. -/
theorem delivers_third_transfer :
    let counter : SequenceCounter := .startingAt Header.countWrap 16382 (by decide)
    let s : Segmenter := { Segmenter.of (.telemetry 5 0) 7 2 with counter := counter }
    let transfers : List Transfer :=
      [⟨[1, 2, 3], [true, false]⟩, ⟨[4, 5, 6], [false, true]⟩, ⟨[7, 8, 9], [true, true]⟩]
    (s.survivors transfers).map (·.header.sequenceCount) = [16383, 2, 3, 4] ∧
      (delivered ((Desegmenter.of 3).acceptAll (s.survivors transfers)).1).map
        (fun m => (keyOf m, m.body)) = [((7, 5), [7, 8, 9])] := by
  intro counter s transfers
  refine ⟨by decide, ?_⟩
  have hround : ¬List.replicate 16384 false <:+: transfers.flatMap (·.kept) := by
    intro hlost
    exact absurd hlost.length_le (by rw [List.length_replicate]; decide)
  exact delivers_whole_transfers (show counter.wrap = Header.countWrap from rfl) (s := s) rfl
    (by decide) (by decide) hround

end Segmenter
end SpaceLink
