import SpaceLink.Can.Frame
import SpaceLink.Proofs.BitField

/-! # Identifiers read back

A valid layout has a place for every field. An identifier whose fields are within their widths is
packed, and unpacking gives it back.
-/
namespace SpaceLink

namespace Layout
open BitField

structure Sound (l : Layout) : Prop where
  src_pos : 0 < l.srcBits
  dst_pos : 0 < l.dstBits
  type_ge : 2 ≤ l.typeBits
  remain_pos : 0 < l.remainBits
  transaction_pos : 0 < l.transactionBits
  total_le : l.total ≤ identifierBits

theorem validate_eq_ok {l : Layout} : l.validate = .ok () ↔ l.Sound := by
  constructor
  · intro h
    rw [validate] at h
    split at h
    · cases h
    · next hnone =>
      split at h
      · cases h
      · split at h
        · cases h
        · next htype htotal =>
          simp only [named, List.find?_eq_none, List.forall_mem_cons, decide_eq_true_eq] at hnone
          obtain ⟨hsrc, hdst, -, hremain, htransaction, -⟩ := hnone
          exact ⟨Nat.pos_of_ne_zero hsrc, Nat.pos_of_ne_zero hdst, Nat.le_of_not_lt htype,
            Nat.pos_of_ne_zero hremain, Nat.pos_of_ne_zero htransaction, Nat.le_of_not_lt htotal⟩
  · intro h
    have hsrc := h.src_pos
    have hdst := h.dst_pos
    have htype := h.type_ge
    have hremain := h.remain_pos
    have htransaction := h.transaction_pos
    have hnone : l.named.find? (·.2 = 0) = none := by
      simp only [named, List.find?_eq_none, List.forall_mem_cons, decide_eq_true_eq]
      refine ⟨?_, ?_, ?_, ?_, ?_, by simp⟩ <;> omega
    rw [validate, hnone]
    simp only
    rw [if_neg (Nat.not_lt.2 htype), if_neg (Nat.not_lt.2 h.total_le)]

/-- The places of the fields, one above the other. -/
def placed (l : Layout) (h : l.Sound) : IdentifierFields :=
  have hsrc := h.src_pos
  have hdst := h.dst_pos
  have htype := h.type_ge
  have hremain := h.remain_pos
  have htransaction := h.transaction_pos
  have htotal : l.srcBits + l.dstBits + l.typeBits + l.remainBits + l.transactionBits ≤ 29 :=
    h.total_le
  { transaction := ⟨0, l.transactionBits, htransaction, by omega⟩
    remain := ⟨0 + l.transactionBits, l.remainBits, hremain, by omega⟩
    frameType := ⟨0 + l.transactionBits + l.remainBits, l.typeBits, by omega, by omega⟩
    dst := ⟨0 + l.transactionBits + l.remainBits + l.typeBits, l.dstBits, hdst, by omega⟩
    src := ⟨0 + l.transactionBits + l.remainBits + l.typeBits + l.dstBits, l.srcBits, hsrc,
      by omega⟩ }

theorem fields_eq_ok {l : Layout} (h : l.Sound) : l.fields = .ok (l.placed h) := by
  have hplace : l.place? = some (l.placed h) := by
    have htransaction : BitField.of? 0 l.transactionBits = some (l.placed h).transaction :=
      of?_self (l.placed h).transaction
    have hremain : (l.placed h).transaction.above? l.remainBits = some (l.placed h).remain :=
      of?_self (l.placed h).remain
    have htype : (l.placed h).remain.above? l.typeBits = some (l.placed h).frameType :=
      of?_self (l.placed h).frameType
    have hdst : (l.placed h).frameType.above? l.dstBits = some (l.placed h).dst :=
      of?_self (l.placed h).dst
    have hsrc : (l.placed h).dst.above? l.srcBits = some (l.placed h).src :=
      of?_self (l.placed h).src
    simp only [place?, htransaction, hremain, htype, hdst, hsrc, Option.bind_eq_bind,
      Option.bind_some]
    rfl
  rw [fields, validate_eq_ok.2 h, hplace]
  rfl

def insertAll (entries : List (String × BitField × UInt32)) (word : UInt64) : UInt64 :=
  entries.foldl (fun word entry => entry.2.1.insertLow word entry.2.2.toUInt64) word

theorem packFields_eq_ok {entries : List (String × BitField × UInt32)} {word packed : UInt64} :
    packFields entries word = .ok packed ↔
      (∀ entry ∈ entries, entry.2.2.toNat < 2 ^ entry.2.1.width) ∧
        packed = insertAll entries word := by
  induction entries generalizing word with
  | nil => simp [packFields, insertAll, eq_comm]
  | cons entry rest ih =>
    obtain ⟨name, field, value⟩ := entry
    have hvalue : value.toUInt64.toNat = value.toNat := UInt32.toNat_toUInt64 _
    rw [List.forall_mem_cons]
    by_cases hlt : value.toNat < 2 ^ field.width
    · rw [packFields, insert?_of_lt (by rw [hvalue]; exact hlt)]
      simp only [ih, hlt, true_and]
      rfl
    · rw [packFields, insert?_eq_none (by rw [hvalue]; exact hlt)]
      simp [hlt]

/-- The first value that is too wide for its field is the one that is reported. -/
theorem packFields_of_too_wide {before after : List (String × BitField × UInt32)} {name : String}
    {field : BitField} {value : UInt32}
    (hbefore : ∀ entry ∈ before, entry.2.2.toNat < 2 ^ entry.2.1.width)
    (hvalue : ¬value.toNat < 2 ^ field.width) (word : UInt64) :
    packFields (before ++ (name, field, value) :: after) word =
      .error (.fieldOverflow name value.toNat field.width) := by
  induction before generalizing word with
  | nil =>
    rw [List.nil_append, packFields,
      insert?_eq_none (by rw [UInt32.toNat_toUInt64]; exact hvalue)]
  | cons entry rest ih =>
    obtain ⟨hfirst, hrest⟩ := List.forall_mem_cons.1 hbefore
    rw [List.cons_append, packFields,
      insert?_of_lt (by rw [UInt32.toNat_toUInt64]; exact hfirst)]
    exact ih hrest _

theorem extract_insertAll_of_apart {field : BitField} {entries : List (String × BitField × UInt32)}
    (h : ∀ entry ∈ entries, field.Apart entry.2.1) (word : UInt64) :
    field.extract (insertAll entries word) = field.extract word := by
  induction entries generalizing word with
  | nil => rfl
  | cons entry rest ih =>
    obtain ⟨hfirst, hrest⟩ := List.forall_mem_cons.1 h
    have hlater := ih hrest (entry.2.1.insertLow word entry.2.2.toUInt64)
    exact hlater.trans (extract_insertLow_of_apart hfirst _ _)

/-- Fields that lie apart read back what was written to each of them. -/
theorem extract_insertAll {entries : List (String × BitField × UInt32)}
    (hfits : ∀ entry ∈ entries, entry.2.2.toNat < 2 ^ entry.2.1.width)
    (hapart : entries.Pairwise fun a b => a.2.1.Apart b.2.1)
    {entry : String × BitField × UInt32} (hentry : entry ∈ entries) (word : UInt64) :
    entry.2.1.extract (insertAll entries word) = entry.2.2.toUInt64 := by
  induction entries generalizing word with
  | nil => simp at hentry
  | cons first rest ih =>
    obtain ⟨hfirst, hrest⟩ := List.forall_mem_cons.1 hfits
    obtain ⟨hbefore, hlater⟩ := List.pairwise_cons.1 hapart
    rcases List.mem_cons.1 hentry with rfl | hmem
    · have hvalue : entry.2.2.toUInt64.toNat < 2 ^ entry.2.1.width := by
        rw [UInt32.toNat_toUInt64]
        exact hfirst
      have hkeep := extract_insertAll_of_apart hbefore
        (entry.2.1.insertLow word entry.2.2.toUInt64)
      exact hkeep.trans (extract_insertLow _ _ hvalue)
    · exact ih hrest hlater hmem _

theorem insertAll_lt {entries : List (String × BitField × UInt32)} {n : Nat}
    (h : ∀ entry ∈ entries, entry.2.1.shift + entry.2.1.width ≤ n) {word : UInt64}
    (hword : word.toNat < 2 ^ n) : (insertAll entries word).toNat < 2 ^ n := by
  induction entries generalizing word with
  | nil => exact hword
  | cons entry rest ih =>
    obtain ⟨hfirst, hrest⟩ := List.forall_mem_cons.1 h
    exact ih hrest (insertLow_lt hfirst hword _)

structure Fits (l : Layout) (id : Identifier) : Prop where
  transaction_lt : id.transaction.toNat < 2 ^ l.transactionBits
  remain_lt : id.remain.toNat < 2 ^ l.remainBits
  type_lt : id.frameType.bits.toNat < 2 ^ l.typeBits
  dst_lt : id.dst.toNat < 2 ^ l.dstBits
  src_lt : id.src.toNat < 2 ^ l.srcBits

/-- The fields of an identifier in the order in which they are written. -/
def entries (l : Layout) (h : l.Sound) (id : Identifier) : List (String × BitField × UInt32) :=
  [("transaction_id", (l.placed h).transaction, id.transaction),
    ("remain", (l.placed h).remain, id.remain),
    ("frame_type", (l.placed h).frameType, id.frameType.bits), ("dst", (l.placed h).dst, id.dst),
    ("src", (l.placed h).src, id.src)]

theorem fits_iff_entries {l : Layout} (h : l.Sound) (id : Identifier) :
    l.Fits id ↔ ∀ entry ∈ l.entries h id, entry.2.2.toNat < 2 ^ entry.2.1.width := by
  simp only [entries, List.forall_mem_cons]
  constructor
  · intro hfits
    exact ⟨hfits.transaction_lt, hfits.remain_lt, hfits.type_lt, hfits.dst_lt, hfits.src_lt,
      by simp⟩
  · rintro ⟨htransaction, hremain, htype, hdst, hsrc, -⟩
    exact ⟨htransaction, hremain, htype, hdst, hsrc⟩

theorem pack_eq {l : Layout} (h : l.Sound) (id : Identifier) :
    l.pack id = (packFields (l.entries h id) 0).map UInt64.toUInt32 := by
  rw [pack, fields_eq_ok h]
  rfl

/-- An identifier is packed just if its fields fit. -/
theorem pack_eq_ok {l : Layout} (h : l.Sound) {id : Identifier} {raw : UInt32} :
    l.pack id = .ok raw ↔ l.Fits id ∧ raw = (insertAll (l.entries h id) 0).toUInt32 := by
  rw [pack_eq h, fits_iff_entries h]
  constructor
  · intro hok
    cases hword : packFields (l.entries h id) 0 with
    | error error => rw [hword] at hok; cases hok
    | ok word =>
      obtain ⟨hfits, rfl⟩ := packFields_eq_ok.1 hword
      rw [hword] at hok
      exact ⟨hfits, (Except.ok.inj hok).symm⟩
  · rintro ⟨hfits, rfl⟩
    rw [packFields_eq_ok.2 ⟨hfits, rfl⟩]
    rfl

theorem pack_of_too_wide {l : Layout} (h : l.Sound) {id : Identifier}
    {before after : List (String × BitField × UInt32)} {name : String} {field : BitField}
    {value : UInt32} (hentries : l.entries h id = before ++ (name, field, value) :: after)
    (hbefore : ∀ entry ∈ before, entry.2.2.toNat < 2 ^ entry.2.1.width)
    (hvalue : ¬value.toNat < 2 ^ field.width) :
    l.pack id = .error (.fieldOverflow name value.toNat field.width) := by
  rw [pack_eq h, hentries, packFields_of_too_wide hbefore hvalue]
  rfl

theorem apart_entries {l : Layout} (h : l.Sound) (id : Identifier) :
    (l.entries h id).Pairwise fun a b => a.2.1.Apart b.2.1 := by
  simp only [entries, List.pairwise_cons, List.forall_mem_cons, Apart, placed]
  refine ⟨⟨?_, ?_, ?_, ?_, by simp⟩, ⟨?_, ?_, ?_, by simp⟩, ⟨?_, ?_, by simp⟩, ⟨?_, by simp⟩,
    by simp, .nil⟩ <;> omega

theorem end_le_of_mem_entries {l : Layout} (h : l.Sound) (id : Identifier) :
    ∀ entry ∈ l.entries h id, entry.2.1.shift + entry.2.1.width ≤ identifierBits := by
  have htotal := h.total_le
  rw [total] at htotal
  simp only [entries, List.forall_mem_cons, placed]
  refine ⟨?_, ?_, ?_, ?_, ?_, by simp⟩ <;> omega

theorem unpack_pack {l : Layout} (h : l.Sound) {id : Identifier} {raw : UInt32}
    (hpack : l.pack id = .ok raw) (htype : FrameType.ofBits id.frameType.bits = id.frameType) :
    l.unpack raw = .ok id := by
  obtain ⟨hfits, rfl⟩ := (pack_eq_ok h).1 hpack
  have hlt : (insertAll (l.entries h id) 0).toNat < 2 ^ identifierBits :=
    insertAll_lt (end_le_of_mem_entries h id) (by decide)
  have hword : (insertAll (l.entries h id) 0).toUInt32.toUInt64 = insertAll (l.entries h id) 0 := by
    apply UInt64.toNat_inj.1
    rw [UInt32.toNat_toUInt64, UInt64.toNat_toUInt32]
    exact Nat.mod_eq_of_lt (hlt.trans (by decide))
  have hget : ∀ entry ∈ l.entries h id,
      (entry.2.1.extract (insertAll (l.entries h id) 0)).toUInt32 = entry.2.2 := by
    intro entry hentry
    rw [extract_insertAll ((fits_iff_entries h id).1 hfits) (apart_entries h id) hentry]
    exact UInt32.toUInt32_toUInt64 _
  have htransaction := hget ("transaction_id", (l.placed h).transaction, id.transaction)
    (by simp [entries])
  have hremain := hget ("remain", (l.placed h).remain, id.remain) (by simp [entries])
  have hbits := hget ("frame_type", (l.placed h).frameType, id.frameType.bits) (by simp [entries])
  have hdst := hget ("dst", (l.placed h).dst, id.dst) (by simp [entries])
  have hsrc := hget ("src", (l.placed h).src, id.src) (by simp [entries])
  simp only at htransaction hremain hbits hdst hsrc
  rw [unpack, fields_eq_ok h]
  simp only [bind, Except.bind, pure, Except.pure, hword, htransaction, hremain, hbits, hdst, hsrc,
    htype]

end Layout
end SpaceLink
