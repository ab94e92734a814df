import Mathlib.Data.Nat.ModEq
import SpaceLink.Can.Fragmenter
import SpaceLink.Can.Reassembler
import SpaceLink.Proofs.Can.Identifier
import SpaceLink.Proofs.Pieces
import SpaceLink.Proofs.SequenceCounter

/-! # Transactions

A transaction is a payload together with the frames that some fragmenter made of it. Its frames count
down from the first to the last, all under one key, and their data is the payload.
-/
namespace SpaceLink

namespace Layout

theorem maxFrames_eq (l : Layout) : l.maxFrames = 2 ^ l.remainBits := Nat.one_shiftLeft _

theorem transactionWrap_eq (l : Layout) : l.transactionWrap = 2 ^ l.transactionBits :=
  Nat.one_shiftLeft _

theorem transactionWrap_pos (l : Layout) : 0 < l.transactionWrap := by
  rw [transactionWrap_eq]
  exact Nat.two_pow_pos _

end Layout

namespace CanConfig

structure Sound (c : CanConfig) : Prop where
  layout : c.layout.Sound
  frame_pos : 1 ≤ c.maxFrameData
  frame_le : c.maxFrameData ≤ largeFrameData

theorem validate_eq_ok {c : CanConfig} : c.validate = .ok () ↔ c.Sound := by
  constructor
  · intro h
    rw [validate] at h
    cases hlayout : c.layout.validate with
    | error error => rw [hlayout] at h; cases h
    | ok =>
      rw [hlayout] at h
      by_cases hframe : 1 ≤ c.maxFrameData ∧ c.maxFrameData ≤ largeFrameData
      · exact ⟨Layout.validate_eq_ok.1 hlayout, hframe.1, hframe.2⟩
      · simp only [if_neg hframe] at h
        cases h
  · intro h
    rw [validate, Layout.validate_eq_ok.2 h.layout, if_pos ⟨h.frame_pos, h.frame_le⟩]
    rfl

theorem Sound.remainBits_le {c : CanConfig} (h : c.Sound) : c.layout.remainBits ≤ 29 := by
  have htotal := h.layout.total_le
  rw [Layout.total, Layout.identifierBits] at htotal
  omega

theorem Sound.transactionBits_le {c : CanConfig} (h : c.Sound) : c.layout.transactionBits ≤ 29 := by
  have htotal := h.layout.total_le
  rw [Layout.total, Layout.identifierBits] at htotal
  omega

/-- No transaction has more frames than a 32-bit word can count. -/
theorem Sound.maxFrames_lt {c : CanConfig} (h : c.Sound) : c.layout.maxFrames < 2 ^ 32 := by
  rw [Layout.maxFrames_eq]
  exact Nat.pow_lt_pow_right (by decide) (Nat.lt_of_le_of_lt h.remainBits_le (by decide))

/-- What counts down the frames of a transaction fits, and so does the type of its first frame. -/
theorem Sound.fits_start {c : CanConfig} (h : c.Sound) {total : Nat}
    (htotal : total ≤ c.layout.maxFrames) :
    (UInt32.ofNat (total - 1)).toNat < 2 ^ c.layout.remainBits ∧
      FrameType.start.bits.toNat < 2 ^ c.layout.typeBits := by
  have hmax := h.maxFrames_lt
  have hpos := Nat.two_pow_pos c.layout.remainBits
  rw [Layout.maxFrames_eq] at htotal hmax
  constructor
  · rw [UInt32.toNat_ofNat', Nat.mod_eq_of_lt (by omega)]
    omega
  · exact Nat.lt_of_lt_of_le (by decide : FrameType.start.bits.toNat < 2 ^ 2)
      (Nat.pow_le_pow_right (by decide) h.layout.type_ge)

theorem Sound.transactionWrap_lt {c : CanConfig} (h : c.Sound) :
    c.layout.transactionWrap < 2 ^ 32 := by
  rw [Layout.transactionWrap_eq]
  exact Nat.pow_lt_pow_right (by decide) (Nat.lt_of_le_of_lt h.transactionBits_le (by decide))

theorem Sound.toNat_wrap {c : CanConfig} (h : c.Sound) :
    (UInt64.ofNat c.layout.transactionWrap).toNat = c.layout.transactionWrap := by
  rw [UInt64.toNat_ofNat']
  exact Nat.mod_eq_of_lt (h.transactionWrap_lt.trans (by decide))

theorem Sound.wrap_pos {c : CanConfig} (h : c.Sound) :
    0 < UInt64.ofNat c.layout.transactionWrap := by
  rw [UInt64.lt_iff_toNat_lt, h.toNat_wrap]
  exact c.layout.transactionWrap_pos

end CanConfig

/-- A fragment that fits its layout comes back from the bus as it was. -/
theorem Fragment.ofCan_toCan_of_fits {layout : Layout} (h : layout.Sound) {f : Fragment}
    (hfits : layout.Fits f.identifier)
    (htype : FrameType.ofBits f.identifier.frameType.bits = f.identifier.frameType)
    (hdata : f.data.length ≤ CanConfig.largeFrameData) :
    ∃ frame : CanFrame, f.toCan layout = .ok frame ∧ ofCan layout frame = .ok f := by
  obtain ⟨raw, hpack⟩ : ∃ raw : UInt32, layout.pack f.identifier = .ok raw :=
    ⟨_, (Layout.pack_eq_ok h).2 ⟨hfits, rfl⟩⟩
  refine ⟨⟨raw, f.data⟩, ?_, ?_⟩
  · rw [toCan, if_neg (Nat.not_lt.2 hdata), hpack]
    rfl
  · rw [ofCan, Layout.unpack_pack h hpack htype]
    rfl

namespace Fragmenter

/-- The states of a fragmenter under a configuration. -/
structure Serves (f : Fragmenter) (config : CanConfig) : Prop where
  sound : config.Sound
  config_eq : f.config = config
  wrap_eq : f.transactions.wrap.toNat = config.layout.transactionWrap

theorem of_eq {config : CanConfig} (h : config.Sound) :
    of config =
      .ok ⟨config, .fresh (UInt64.ofNat config.layout.transactionWrap) h.wrap_pos⟩ := by
  rw [of, CanConfig.validate_eq_ok.2 h]
  simp only [SequenceCounter.fresh?, dif_pos h.wrap_pos]
  rfl

theorem serves_of {config : CanConfig} {f : Fragmenter} (h : of config = .ok f) :
    f.Serves config := by
  cases hvalid : config.validate with
  | error error => rw [of, hvalid] at h; cases h
  | ok =>
    have hsound := CanConfig.validate_eq_ok.1 hvalid
    rw [of_eq hsound] at h
    cases h
    exact ⟨hsound, rfl, hsound.toNat_wrap⟩

theorem Serves.fragment {f : Fragmenter} {config : CanConfig} (h : f.Serves config)
    (src dst : UInt32) (payload : Bytes) : (f.fragment src dst payload).2.Serves config := by
  rw [Fragmenter.fragment]
  split
  · exact h
  · split
    · exact h
    · exact ⟨h.sound, h.config_eq, h.wrap_eq⟩

/-- The identifier that is tried before a number is drawn. -/
def startOf (src dst : UInt32) (total : Nat) : Identifier :=
  ⟨src, dst, .start, UInt32.ofNat (total - 1), 0⟩

theorem exists_pack_start {config : CanConfig} (h : config.Sound) {src dst : UInt32} {total : Nat}
    (htotal : total ≤ config.layout.maxFrames)
    (hdst : dst.toNat < 2 ^ config.layout.dstBits)
    (hsrc : src.toNat < 2 ^ config.layout.srcBits) :
    ∃ raw : UInt32, config.layout.pack (startOf src dst total) = .ok raw := by
  obtain ⟨hremain, htype⟩ := h.fits_start htotal
  have hfits : config.layout.Fits (startOf src dst total) :=
    ⟨Nat.two_pow_pos _, hremain, htype, hdst, hsrc⟩
  exact ⟨_, (Layout.pack_eq_ok h.layout).2 ⟨hfits, rfl⟩⟩

end Fragmenter

/-- A payload and the frames that a fragmenter made of it. -/
structure Transaction (config : CanConfig) where
  sender : Fragmenter
  src : UInt32
  dst : UInt32
  payload : Bytes
  frames : List Fragment
  serves : sender.Serves config
  frames_eq : (sender.fragment src dst payload).1 = .ok frames

namespace Transaction
open Fragmenter

variable {config : CanConfig} (t : Transaction config)

def number : UInt64 := valueAfter t.sender.transactions.wrap t.sender.transactions.current 0

def key : TransactionKey := ⟨t.src, t.dst, t.number.toUInt32⟩

/-- The fragmenter as the call leaves it. -/
def after : Fragmenter := (t.sender.fragment t.src t.dst t.payload).2

def total : Nat := Pieces.count config.maxFrameData t.payload.length

theorem total_pos : 0 < t.total := Pieces.count_pos _ _

/-- What a successful call has checked, and what it returned. -/
theorem fragment_eq :
    t.total ≤ config.layout.maxFrames ∧
      (∃ raw : UInt32,
        config.layout.pack ⟨t.src, t.dst, .start, UInt32.ofNat (t.total - 1), 0⟩ = .ok raw) ∧
      t.frames = (Pieces.cut config.maxFrameData t.payload).mapIdx
        (frameFor t.src t.dst t.number.toUInt32 t.total) ∧
      t.after = ⟨config, t.sender.transactions.next.2⟩ := by
  have hframes := t.frames_eq
  have hconfig := t.serves.config_eq
  have htotal : t.sender.framesFor t.payload.length = t.total := by
    rw [framesFor, hconfig, total]
  have hafter : t.after = (t.sender.fragment t.src t.dst t.payload).2 := rfl
  simp only [fragment, htotal, hconfig] at hframes hafter
  by_cases hmax : config.layout.maxFrames < t.total
  · rw [if_pos hmax] at hframes
    cases hframes
  · rw [if_neg hmax] at hframes hafter
    cases hpack : config.layout.pack ⟨t.src, t.dst, .start, UInt32.ofNat (t.total - 1), 0⟩ with
    | error error => rw [hpack] at hframes; cases hframes
    | ok raw =>
      simp only [hpack, SequenceCounter.next_fst] at hframes hafter
      exact ⟨Nat.le_of_not_lt hmax, ⟨raw, rfl⟩, (Except.ok.inj hframes).symm, hafter⟩

theorem length_frames : t.frames.length = t.total := by
  obtain ⟨-, -, hframes, -⟩ := t.fragment_eq
  rw [hframes, List.length_mapIdx, Pieces.length_cut t.serves.sound.frame_pos, total]

theorem length_frames_pos : 0 < t.frames.length := by
  rw [length_frames]
  exact t.total_pos

theorem length_frames_lt : t.frames.length < 2 ^ 32 := by
  rw [length_frames]
  exact Nat.lt_of_le_of_lt t.fragment_eq.1 t.serves.sound.maxFrames_lt

/-- Every frame has the piece of its place. -/
theorem frame_eq_piece {index : Nat} {f : Fragment} (h : t.frames[index]? = some f) :
    f = frameFor t.src t.dst t.number.toUInt32 t.frames.length index f.data ∧
      (Pieces.cut config.maxFrameData t.payload)[index]? = some f.data := by
  obtain ⟨-, -, hframes, -⟩ := t.fragment_eq
  rw [length_frames]
  rw [hframes, List.getElem?_mapIdx, Option.map_eq_some_iff] at h
  obtain ⟨piece, hpiece, rfl⟩ := h
  exact ⟨rfl, hpiece⟩

theorem frame_eq {index : Nat} {f : Fragment} (h : t.frames[index]? = some f) :
    f = frameFor t.src t.dst t.number.toUInt32 t.frames.length index f.data ∧
      f.data.length ≤ config.maxFrameData := by
  obtain ⟨hframe, hpiece⟩ := t.frame_eq_piece h
  have hle := Pieces.length_le_of_mem_cut t.serves.sound.frame_pos (List.mem_of_getElem? hpiece)
  exact ⟨hframe, Nat.le_trans hle (Nat.min_le_left _ _)⟩

theorem data_frames : t.frames.flatMap (·.data) = t.payload := by
  obtain ⟨-, -, hframes, -⟩ := t.fragment_eq
  have hpieces : t.frames.map (·.data) = Pieces.cut config.maxFrameData t.payload := by
    rw [hframes]
    apply List.ext_getElem
    · simp
    · intro i _ _
      simp [frameFor]
  rw [List.flatMap_def, hpieces, Pieces.flatten_cut]

variable {t} {index : Nat} {f : Fragment}

theorem keyOf_frame (h : t.frames[index]? = some f) : Reassembler.keyOf f.identifier = t.key := by
  rw [(t.frame_eq h).1]
  rfl

theorem route_frame (h : t.frames[index]? = some f) : f.identifier.src = t.src ∧
    f.identifier.dst = t.dst ∧ f.identifier.transaction = t.key.transaction := by
  rw [(t.frame_eq h).1]
  exact ⟨rfl, rfl, rfl⟩

theorem type_frame (h : t.frames[index]? = some f) :
    f.identifier.frameType = typeFor index t.frames.length := by
  rw [(t.frame_eq h).1]
  rfl

/-- A frame tells how many follow it. -/
theorem remain_frame (h : t.frames[index]? = some f) :
    f.identifier.remain.toNat + index + 1 = t.frames.length := by
  obtain ⟨hindex, -⟩ := List.getElem?_eq_some_iff.1 h
  have hlt := t.length_frames_lt
  rw [(t.frame_eq h).1, frameFor]
  simp only
  rw [UInt32.toNat_ofNat', Nat.mod_eq_of_lt (by omega)]
  omega

variable (t) in
theorem toNat_number :
    t.number.toNat = (t.sender.transactions.current.toNat + 1) % config.layout.transactionWrap := by
  rw [number, toNat_valueAfter _ _ t.sender.transactions.wrap_pos, t.serves.wrap_eq]

variable (t) in
theorem number_lt : t.number.toNat < config.layout.transactionWrap := by
  rw [toNat_number]
  exact Nat.mod_lt _ config.layout.transactionWrap_pos

variable (t) in
/-- A number fits its field, so the key has all of it. -/
theorem toNat_transaction : t.key.transaction.toNat = t.number.toNat := by
  rw [key, UInt64.toNat_toUInt32]
  exact Nat.mod_eq_of_lt (t.number_lt.trans t.serves.sound.transactionWrap_lt)

theorem typeFor_bits (index total : Nat) :
    (typeFor index total).bits.toNat < 4 ∧
      FrameType.ofBits (typeFor index total).bits = typeFor index total := by
  unfold typeFor
  split
  · exact ⟨by decide, rfl⟩
  · split
    · exact ⟨by decide, rfl⟩
    · exact ⟨by decide, rfl⟩

theorem fits_frame (h : t.frames[index]? = some f) : config.layout.Fits f.identifier := by
  have hsound := t.serves.sound
  obtain ⟨hmax, ⟨start, hstart⟩, -, -⟩ := t.fragment_eq
  obtain ⟨hfits, -⟩ := (Layout.pack_eq_ok hsound.layout).1 hstart
  obtain ⟨hsrc, hdst, htransaction⟩ := route_frame h
  have hremain := remain_frame h
  obtain ⟨hbits, -⟩ := typeFor_bits index t.frames.length
  have hpow : 2 ^ 2 ≤ 2 ^ config.layout.typeBits :=
    Nat.pow_le_pow_right (by decide) hsound.layout.type_ge
  rw [t.length_frames] at hremain
  refine ⟨?_, ?_, ?_, ?_, ?_⟩
  · rw [htransaction, toNat_transaction, ← Layout.transactionWrap_eq]
    exact t.number_lt
  · rw [Layout.maxFrames_eq] at hmax
    omega
  · rw [type_frame h]
    omega
  · rw [hdst]
    exact hfits.dst_lt
  · rw [hsrc]
    exact hfits.src_lt

theorem ofCan_toCan (h : t.frames[index]? = some f) :
    ∃ frame : CanFrame, f.toCan config.layout = .ok frame ∧
      Fragment.ofCan config.layout frame = .ok f := by
  have hsound := t.serves.sound
  have htype : FrameType.ofBits f.identifier.frameType.bits = f.identifier.frameType := by
    rw [type_frame h]
    exact (typeFor_bits _ _).2
  exact Fragment.ofCan_toCan_of_fits hsound.layout (fits_frame h) htype
    ((t.frame_eq h).2.trans hsound.frame_le)

/-- The first transaction of a node, with three bytes in two frames. -/
def threeBytes : Transaction ⟨.extended, 2⟩ where
  sender := ⟨⟨.extended, 2⟩, .fresh 32 (by decide)⟩
  src := 1
  dst := 2
  payload := [1, 2, 3]
  frames := [⟨⟨1, 2, .start, 1, 0⟩, [1, 2]⟩, ⟨⟨1, 2, .last, 0, 0⟩, [3]⟩]
  serves := ⟨CanConfig.validate_eq_ok.1 rfl, rfl, rfl⟩
  frames_eq := rfl

/-- The first transaction of another node, in one frame. -/
def oneByte : Transaction ⟨.extended, 2⟩ where
  sender := ⟨⟨.extended, 2⟩, .fresh 32 (by decide)⟩
  src := 3
  dst := 2
  payload := [9]
  frames := [⟨⟨3, 2, .start, 0, 0⟩, [9]⟩]
  serves := ⟨CanConfig.validate_eq_ok.1 rfl, rfl, rfl⟩
  frames_eq := rfl

end Transaction

/-- The successful calls of one fragmenter, each from the state that the one before it left. -/
structure Calls (config : CanConfig) (node : UInt32) where
  transactions : List (Transaction config)
  src_eq : ∀ t ∈ transactions, t.src = node
  chained : transactions.IsChain fun t next => next.sender = t.after

namespace Calls
open Transaction

variable {config : CanConfig} {node : UInt32} (calls : Calls config node)

theorem number_succ {k : Nat} {t next : Transaction config} (ht : calls.transactions[k]? = some t)
    (hnext : calls.transactions[k + 1]? = some next) :
    next.number.toNat = (t.number.toNat + 1) % config.layout.transactionWrap := by
  obtain ⟨-, rfl⟩ := List.getElem?_eq_some_iff.1 ht
  obtain ⟨hlt, rfl⟩ := List.getElem?_eq_some_iff.1 hnext
  have hafter := List.isChain_iff_getElem.1 calls.chained k hlt
  have hcurrent : calls.transactions[k + 1].sender.transactions.current =
      calls.transactions[k].number := by
    rw [hafter, (calls.transactions[k].fragment_eq).2.2.2]
    exact SequenceCounter.current_next _
  rw [toNat_number, hcurrent]

theorem number_add {k d : Nat} {t later : Transaction config}
    (ht : calls.transactions[k]? = some t) (hlater : calls.transactions[k + d]? = some later) :
    later.number.toNat = (t.number.toNat + d) % config.layout.transactionWrap := by
  induction d generalizing later with
  | zero =>
    rw [Nat.add_zero, ht] at hlater
    cases hlater
    exact (Nat.mod_eq_of_lt t.number_lt).symm
  | succ d ih =>
    obtain ⟨hlt, -⟩ := List.getElem?_eq_some_iff.1 hlater
    have hbefore : calls.transactions[k + d]? = some calls.transactions[k + d] :=
      List.getElem?_eq_getElem _
    rw [calls.number_succ hbefore hlater, ih hbefore, Nat.mod_add_mod, Nat.add_assoc]

/-- A number comes again only after a whole round of the counter. -/
theorem wrap_le_of_number_eq {j k : Nat} {t later : Transaction config} (hjk : j < k)
    (ht : calls.transactions[j]? = some t) (hlater : calls.transactions[k]? = some later)
    (h : later.number = t.number) : config.layout.transactionWrap ≤ k - j := by
  obtain ⟨d, rfl⟩ := Nat.exists_eq_add_of_le (Nat.le_of_lt hjk)
  have hadd := calls.number_add ht hlater
  rw [h] at hadd
  rw [Nat.add_sub_cancel_left]
  by_contra hlt
  have hself := Nat.mod_eq_of_lt t.number_lt
  have hmod : (t.number.toNat + 0) % config.layout.transactionWrap =
      (t.number.toNat + d) % config.layout.transactionWrap := by
    rw [Nat.add_zero, hself]
    exact hadd
  have hd : Nat.ModEq config.layout.transactionWrap 0 d := Nat.ModEq.add_left_cancel' _ hmod
  have hzero := Nat.ModEq.eq_of_lt_of_lt hd config.layout.transactionWrap_pos (by omega)
  omega

end Calls
end SpaceLink
