import Mathlib.Data.Finset.Prod
import SpaceLink.Proofs.Can.Packing
import SpaceLink.Proofs.Can.Rows
import SpaceLink.Proofs.Store

/-! # What a reassembler holds

The layout bounds what any bus can make a reassembler hold. A buffer has room for the frames that
have been counted down, and each of them for so many bytes; its key is one that fits the layout.
-/
namespace SpaceLink

theorem Fragment.ofCan_eq {layout : Layout} (h : layout.Sound) (frame : CanFrame) :
    ofCan layout frame = .ok ⟨layout.unpacked h frame.id, frame.data⟩ := by
  rw [ofCan, Layout.unpack_eq h]
  rfl

/-- The key is one of the layout, for the local node if there is one, and what is stored under it is
no more than the frames hold that have been counted down from the greatest count. -/
structure OpenTransaction.Within (config : CanConfig) (node : Option UInt32) (key : TransactionKey)
    (o : OpenTransaction) : Prop where
  src_lt : key.src.toNat < 2 ^ config.layout.srcBits
  dst_lt : key.dst.toNat < 2 ^ config.layout.dstBits
  transaction_lt : key.transaction.toNat < 2 ^ config.layout.transactionBits
  dst_eq : ∀ own, node = some own → key.dst = own
  remain_le : o.expectedRemain.toNat ≤ 2 ^ config.layout.remainBits - 2
  length_le : o.data.bytes.length ≤
    (2 ^ config.layout.remainBits - 1 - o.expectedRemain.toNat) * config.maxFrameData

namespace Reassembler
open OpenTransaction

variable {config : CanConfig} {node : Option UInt32} {r : Reassembler} {f : Fragment}
  {key : TransactionKey}

/-- All that a reassembler holds is within the bounds of its configuration. -/
structure Bounded (r : Reassembler) (config : CanConfig) (node : Option UInt32) : Prop where
  under : r.Under config node
  distinct : r.buffers.Distinct
  within : ∀ key o, r.buffers.get? key = some o → o.Within config node key

theorem Effect.distinct {result : Except CanError ReassemblyEvent × Reassembler}
    (h : Effect r f result) (hr : r.buffers.Distinct) : result.2.buffers.Distinct := by
  cases h with
  | idle _ => exact hr
  | close _ => exact hr.erase _
  | keep _ => exact hr.insert _ _
  | deliver _ => exact hr.erase _

section Turn
variable {slot slot' : Option OpenTransaction} {answer : Except CanError ReassemblyEvent}

/-- One frame more has been counted down, and no more than one frame holds has been added. -/
theorem length_le_of_counted {limit expected room length data : Nat} (hlimit : expected + 1 < limit)
    (hlength : length ≤ (limit - 1 - (expected + 1)) * room) (hdata : data ≤ room) :
    length + data ≤ (limit - 1 - expected) * room := by
  have hcount : limit - 1 - expected = limit - 1 - (expected + 1) + 1 := by omega
  rw [hcount, Nat.succ_mul]
  exact Nat.add_le_add hlength hdata

/-- What a frame that counts leaves under its key is within the bounds. -/
theorem Turn.within (h : Turn f slot answer slot') (hfits : config.layout.Fits f.identifier)
    (heffective : isEffective config node f = true)
    (hslot : ∀ o, slot = some o → o.Within config node (affected f)) :
    ∀ o, slot' = some o → o.Within config node (affected f) := by
  obtain ⟨hnode, hdata, -⟩ := isEffective_eq_true.1 heffective
  have hremain := hfits.remain_lt
  rintro o rfl
  cases h with
  | opened htype hne =>
    have hpred := toNat_pred hne
    have hlimit : (f.identifier.remain - 1).toNat + 1 < 2 ^ config.layout.remainBits := by omega
    rw [affected_eq_keyOf (by simp [htype])]
    refine ⟨hfits.src_lt, hfits.dst_lt, hfits.transaction_lt, ?_, Nat.le_sub_of_add_le hlimit, ?_⟩
    · rintro own rfl
      have hown : own = f.identifier.dst := by simpa using hnode
      exact hown.symm
    · rw [Gathered.bytes_of, ← Nat.zero_add f.data.length]
      exact length_le_of_counted hlimit (Nat.zero_le _) (Nat.not_lt.1 hdata)
  | @next old htype hexpected hne =>
    have hold := hslot old rfl
    have hpred := toNat_pred (hexpected ▸ hne)
    have hlength := hold.length_le
    have hlimit : (old.expectedRemain - 1).toNat + 1 < 2 ^ config.layout.remainBits := by
      rwa [hpred, ← hexpected]
    rw [← hpred] at hlength
    refine ⟨hold.src_lt, hold.dst_lt, hold.transaction_lt, hold.dst_eq,
      Nat.le_sub_of_add_le hlimit, ?_⟩
    rw [Gathered.bytes_append, List.length_append]
    exact length_le_of_counted hlimit hlength (Nat.not_lt.1 hdata)

/-- A payload has come in no more frames than the layout can count. -/
theorem Turn.length_le (h : Turn f slot answer slot')
    (heffective : isEffective config node f = true)
    (hslot : ∀ o, slot = some o → o.Within config node (affected f)) {payload : Bytes}
    (hanswer : answer = .ok (.delivered key payload)) :
    payload.length ≤ 2 ^ config.layout.remainBits * config.maxFrameData := by
  have hdata := Nat.not_lt.1 (isEffective_eq_true.1 heffective).2.1
  have hpos := Nat.two_pow_pos config.layout.remainBits
  cases h with
  | whole _ _ =>
    cases hanswer
    exact Nat.le_trans hdata (Nat.le_mul_of_pos_left _ hpos)
  | @completed old _ hexpected hzero =>
    have hlength := (hslot old rfl).length_le
    rw [← hexpected, hzero, UInt32.toNat_zero, Nat.sub_zero] at hlength
    cases hanswer
    rw [Gathered.bytes_append, List.length_append]
    calc old.data.bytes.length + f.data.length
        ≤ (2 ^ config.layout.remainBits - 1) * config.maxFrameData + config.maxFrameData :=
          Nat.add_le_add hlength hdata
      _ = 2 ^ config.layout.remainBits * config.maxFrameData := by
          rw [← Nat.succ_mul, Nat.succ_eq_add_one, Nat.sub_add_cancel hpos]
  | _ => simp at hanswer

/-- A frame that is kept has been counted down by one, from its own count and, behind the first,
from the one that was expected. -/
theorem Turn.counted (h : Turn f slot (.ok .pending) slot') :
    ∃ o, slot' = some o ∧ affected f = keyOf f.identifier ∧
      o.expectedRemain.toNat + 1 = f.identifier.remain.toNat ∧
      (f.identifier.frameType = .start ∨ f.identifier.frameType = .continuation ∧
        ∃ old, slot = some old ∧ o.expectedRemain.toNat + 1 = old.expectedRemain.toNat) := by
  cases h with
  | opened htype hne =>
    exact ⟨_, rfl, affected_eq_keyOf (by simp [htype]), toNat_pred hne, .inl htype⟩
  | next htype hexpected hne =>
    have hpred := toNat_pred (hexpected ▸ hne)
    exact ⟨_, rfl, affected_eq_keyOf (by simp [htype]), hexpected ▸ hpred,
      .inr ⟨htype, _, rfl, hpred⟩⟩

end Turn

theorem bounded_of (config : CanConfig) (node : Option UInt32) :
    Bounded ⟨config, node, {}⟩ config node :=
  ⟨⟨rfl, rfl⟩, List.nodup_nil, fun _ _ hget => nomatch hget⟩

/-- A frame whose identifier fits the layout keeps what is held within the bounds. -/
theorem Bounded.accept (h : r.Bounded config node) (hfits : config.layout.Fits f.identifier) :
    (r.accept f).2.Bounded config node := by
  obtain ⟨hconfig, hnode⟩ := (accept_effect r f).settings_eq
  refine ⟨⟨hconfig.trans h.under.config_eq, hnode.trans h.under.localNode_eq⟩,
    (accept_effect r f).distinct h.distinct, fun key o hget => ?_⟩
  by_cases htouches : touches config node key f = true
  · obtain ⟨heffective, rfl⟩ : isEffective config node f = true ∧ affected f = key := by
      simpa [touches] using htouches
    exact (accept_turn h.under heffective).within hfits heffective (h.within _) o hget
  · rw [get?_accept_of_not_touches h.under (Bool.eq_false_iff.2 htouches)] at hget
    exact h.within key o hget

/-- Whatever frame comes off the bus, its identifier fits the layout. -/
theorem Bounded.acceptCan_eq (h : r.Bounded config node) (hsound : config.Sound)
    (frame : CanFrame) : ∃ f : Fragment, Fragment.ofCan config.layout frame = .ok f ∧
      config.layout.Fits f.identifier ∧ r.acceptCan frame = r.accept f := by
  have hframe := Fragment.ofCan_eq hsound.layout frame
  refine ⟨_, hframe, Layout.fits_unpacked hsound.layout frame.id, ?_⟩
  rw [acceptCan, h.under.config_eq, hframe]

theorem Bounded.run (h : r.Bounded config node) (hsound : config.Sound) (frames : List CanFrame) :
    (runLog acceptCan r frames).2.Bounded config node := by
  induction frames using List.reverseRecOn with
  | nil => exact h
  | append_singleton frames frame ih =>
    obtain ⟨f, -, hfits, haccept⟩ := ih.acceptCan_eq hsound frame
    rw [runLog_concat, haccept]
    exact ih.accept hfits

/-- There are no more buffers than keys that fit the layout. -/
theorem Bounded.pending_le (h : r.Bounded config node) :
    r.pending ≤ 2 ^ (config.layout.srcBits + config.layout.dstBits +
      config.layout.transactionBits) := by
  let l := config.layout
  let keys := (r.buffers.entries.map (·.1)).toFinset
  let code (key : TransactionKey) : ℕ × ℕ × ℕ :=
    (key.src.toNat, key.dst.toNat, key.transaction.toNat)
  have hcode : Set.InjOn code keys := by
    rintro ⟨src, dst, transaction⟩ - ⟨src', dst', transaction'⟩ - hsame
    simpa [code, UInt32.toNat_inj] using hsame
  have hmaps : Set.MapsTo code keys (Finset.range (2 ^ l.srcBits) ×ˢ
      Finset.range (2 ^ l.dstBits) ×ˢ Finset.range (2 ^ l.transactionBits) :
        Finset (ℕ × ℕ × ℕ)) := by
    intro key hkey
    obtain ⟨⟨_, o⟩, hentry, rfl⟩ : ∃ entry ∈ r.buffers.entries, entry.1 = key := by
      simpa [keys] using hkey
    have hwithin := h.within _ o (h.distinct.get?_of_mem hentry)
    simpa [code] using ⟨hwithin.src_lt, hwithin.dst_lt, hwithin.transaction_lt⟩
  calc r.pending = keys.card := by
        rw [List.toFinset_card_of_nodup h.distinct, List.length_map]
        rfl
    _ ≤ _ := Finset.card_le_card_of_injOn code hmaps hcode
    _ = 2 ^ (l.srcBits + l.dstBits + l.transactionBits) := by
        rw [Finset.card_product, Finset.card_product, Finset.card_range, Finset.card_range,
          Finset.card_range, Nat.pow_add, Nat.pow_add, Nat.mul_assoc]

/-- Under a valid configuration, whatever frames come off the bus: every buffer is within the bounds
of the layout, and so are their number and every payload that is handed over. A frame that is kept
leaves a count of one less than its own, and behind the first one less than was expected, so no
count ever passes zero. -/
theorem holds_within_layout {config : CanConfig} (hvalid : config.validate = .ok ())
    (node : Option UInt32) :
    ∃ start : Reassembler, Reassembler.of config node = .ok start ∧ ∀ frames : List CanFrame,
      let r := (runLog acceptCan start frames).2
      let limit := 2 ^ config.layout.remainBits
      (∀ entry ∈ r.buffers.entries, entry.2.Within config node entry.1 ∧
        entry.2.data.bytes.length ≤ (limit - 1) * config.maxFrameData) ∧
      r.pending ≤ 2 ^ (config.layout.srcBits + config.layout.dstBits +
        config.layout.transactionBits) ∧
      ∀ frame : CanFrame,
        (∀ key payload, (r.acceptCan frame).1 = .ok (.delivered key payload) →
          payload.length ≤ limit * config.maxFrameData) ∧
        ((r.acceptCan frame).1 = .ok .pending → ∃ f o,
          Fragment.ofCan config.layout frame = .ok f ∧
          (r.acceptCan frame).2.buffers.get? (keyOf f.identifier) = some o ∧
          o.expectedRemain.toNat + 1 = f.identifier.remain.toNat ∧
          (f.identifier.frameType = .start ∨ f.identifier.frameType = .continuation ∧
            ∃ old, r.buffers.get? (keyOf f.identifier) = some old ∧
              o.expectedRemain.toNat + 1 = old.expectedRemain.toNat)) := by
  have hsound := CanConfig.validate_eq_ok.1 hvalid
  refine ⟨⟨config, node, {}⟩, by rw [Reassembler.of, hvalid]; rfl, fun frames => ?_⟩
  intro r limit
  have hbounded : r.Bounded config node := (bounded_of config node).run hsound frames
  refine ⟨fun entry hentry => ?_, hbounded.pending_le, fun frame => ?_⟩
  · have hwithin := hbounded.within _ _ (hbounded.distinct.get?_of_mem hentry)
    exact ⟨hwithin, Nat.le_trans hwithin.length_le (Nat.mul_le_mul_right _ (Nat.sub_le _ _))⟩
  obtain ⟨f, hframe, hfits, haccept⟩ := hbounded.acceptCan_eq hsound frame
  rw [haccept]
  by_cases heffective : isEffective config node f = true
  · have hturn := accept_turn hbounded.under heffective
    refine ⟨fun key payload => hturn.length_le heffective (hbounded.within _), fun hpending => ?_⟩
    rw [hpending] at hturn
    obtain ⟨o, ho, hkey, hcounted⟩ := hturn.counted
    rw [hkey] at ho hcounted
    exact ⟨f, o, hframe, ho, hcounted⟩
  · rcases (accept_of_not_effective hbounded.under (Bool.eq_false_iff.2 heffective)).2 with
      hanswer | hanswer <;> simp [hanswer]

/-- With two frames of two bytes as the most: a first frame with ones above the layout and another
of too much data leave one full buffer, and the last frame completes the longest payload. -/
theorem holds_full_buffer :
    let config : CanConfig := ⟨⟨7, 7, 2, 1, 5⟩, 2⟩
    config.validate = .ok () ∧ ∃ start : Reassembler, Reassembler.of config (some 2) = .ok start ∧
      let r := (runLog acceptCan start [⟨0xFFC08260, [1, 2]⟩, ⟨33376, [9, 9, 9]⟩]).2
      r.pending = 1 ∧
      (∀ entry ∈ r.buffers.entries, entry.2.Within config (some 2) entry.1) ∧
      (r.acceptCan ⟨33408, [3, 4]⟩).1 = .ok (.delivered ⟨1, 2, 0⟩ [1, 2, 3, 4]) ∧
      ([1, 2, 3, 4] : Bytes).length ≤ 2 ^ config.layout.remainBits * config.maxFrameData := by
  intro config
  have hvalid : config.validate = .ok () := rfl
  obtain ⟨start, hstart, hall⟩ := holds_within_layout hvalid (some 2)
  obtain rfl := of_eq_ok hstart
  obtain ⟨hwithin, -, hframe⟩ := hall [⟨0xFFC08260, [1, 2]⟩, ⟨33376, [9, 9, 9]⟩]
  have hlast : ((runLog acceptCan ⟨config, some 2, {}⟩
      [⟨0xFFC08260, [1, 2]⟩, ⟨33376, [9, 9, 9]⟩]).2.acceptCan ⟨33408, [3, 4]⟩).1 =
        .ok (.delivered ⟨1, 2, 0⟩ [1, 2, 3, 4]) := by
    decide +kernel
  exact ⟨hvalid, _, hstart, by decide +kernel, fun entry hentry => (hwithin entry hentry).1, hlast,
    (hframe _).1 _ _ hlast⟩

end Reassembler
end SpaceLink
