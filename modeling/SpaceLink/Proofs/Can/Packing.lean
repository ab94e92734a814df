import SpaceLink.Proofs.Can.Identifier

/-! # Packed identifiers as numbers

The fields of an identifier are the digits of its number, the source in front. So every number
below the total width of a layout is one identifier, numbers compare as their digits do, and a
digit that is too wide for its field is reported, the lowest one if there are several.
-/
namespace SpaceLink

namespace FrameType

theorem bits_ofBits (value : UInt32) : (ofBits value).bits = value := by
  unfold ofBits
  split_ifs with h0 h1 h2 h3
  · exact h0.symm
  · exact h1.symm
  · exact h2.symm
  · exact h3.symm
  · rfl

end FrameType

/-- The fields in the order in which identifiers compare. -/
def Identifier.ranks (id : Identifier) : List UInt32 :=
  [id.src, id.dst, id.frameType.bits, id.remain, id.transaction]

namespace Layout
open BitField

/-- A value that is to be packed into so many bits. -/
structure Slot where
  name : String
  width : Nat
  value : UInt32

def Slot.Fits (s : Slot) : Prop := s.value.toNat < 2 ^ s.width

/-- What is to be packed, from the lowest field up. -/
def slots (l : Layout) (id : Identifier) : List Slot :=
  [⟨"transaction_id", l.transactionBits, id.transaction⟩, ⟨"remain", l.remainBits, id.remain⟩,
    ⟨"frame_type", l.typeBits, id.frameType.bits⟩, ⟨"dst", l.dstBits, id.dst⟩,
    ⟨"src", l.srcBits, id.src⟩]

/-- Numbers of two digits, of which the second is below the place of the first. -/
theorem place_mul_add_lt_iff {place a b x y : Nat} (hx : x < place) (hy : y < place) :
    place * a + x < place * b + y ↔ a < b ∨ a = b ∧ x < y := by
  rcases Nat.lt_trichotomy a b with hlt | rfl | hgt
  · have hstep : place * (a + 1) ≤ place * b := Nat.mul_le_mul_left _ hlt
    rw [Nat.mul_succ] at hstep
    exact iff_of_true (by omega) (.inl hlt)
  · simp
  · have hstep : place * (b + 1) ≤ place * a := Nat.mul_le_mul_left _ hgt
    rw [Nat.mul_succ] at hstep
    exact iff_of_false (by omega) (by omega)

section Stacked

/-- Fields from the highest down, each of them right above all those behind it. -/
def Stacked : List (String × BitField × UInt32) → Prop
  | [] => True
  | entry :: below => entry.2.1.shift = (below.map (·.2.1.width)).sum ∧ Stacked below

/-- The number that has the values as digits. -/
def weight : List (String × BitField × UInt32) → Nat
  | [] => 0
  | entry :: below => 2 ^ entry.2.1.shift * entry.2.2.toNat + weight below

variable {entries others : List (String × BitField × UInt32)}

theorem weight_lt (hstacked : Stacked entries)
    (hfits : ∀ entry ∈ entries, entry.2.2.toNat < 2 ^ entry.2.1.width) :
    weight entries < 2 ^ (entries.map (·.2.1.width)).sum := by
  induction entries with
  | nil => exact Nat.one_pos
  | cons entry below ih =>
    obtain ⟨hshift, hbelow⟩ := hstacked
    obtain ⟨hfirst, hrest⟩ := List.forall_mem_cons.1 hfits
    have hlow : weight below < 2 ^ entry.2.1.shift := by
      rw [hshift]
      exact ih hbelow hrest
    calc weight (entry :: below)
        < 2 ^ entry.2.1.shift * entry.2.2.toNat + 2 ^ entry.2.1.shift := by
          simpa only [weight] using Nat.add_lt_add_left hlow _
      _ = 2 ^ entry.2.1.shift * (entry.2.2.toNat + 1) := (Nat.mul_succ _ _).symm
      _ ≤ 2 ^ entry.2.1.shift * 2 ^ entry.2.1.width := Nat.mul_le_mul_left _ hfirst
      _ = 2 ^ ((entry :: below).map (·.2.1.width)).sum := by
          rw [← Nat.pow_add, hshift, List.map_cons, List.sum_cons, Nat.add_comm]

/-- Written from the lowest field up, the values are the digits of the word. -/
theorem toNat_insertAll_reverse (hstacked : Stacked entries)
    (hfits : ∀ entry ∈ entries, entry.2.2.toNat < 2 ^ entry.2.1.width) :
    (insertAll entries.reverse 0).toNat = weight entries := by
  induction entries with
  | nil => rfl
  | cons entry below ih =>
    obtain ⟨hshift, hbelow⟩ := hstacked
    obtain ⟨hfirst, hrest⟩ := List.forall_mem_cons.1 hfits
    have hlow := ih hbelow hrest
    have hword : (insertAll below.reverse 0).toNat < 2 ^ entry.2.1.shift := by
      rw [hlow, hshift]
      exact weight_lt hbelow hrest
    have hvalue : entry.2.2.toUInt64.toNat = entry.2.2.toNat := UInt32.toNat_toUInt64 _
    have hlast : insertAll (entry :: below).reverse 0 =
        entry.2.1.insertLow (insertAll below.reverse 0) entry.2.2.toUInt64 := by
      simp [insertAll]
    rw [hlast, toNat_insertLow_of_lt hword (hvalue.symm ▸ hfirst), hvalue, hlow, weight]

/-- Values of the same fields compare digit by digit, from the highest down. -/
theorem weight_lt_weight_iff
    (hsame : List.Forall₂ (fun a b => a.2.1 = b.2.1) entries others)
    (hstacked : Stacked entries) (hstacked' : Stacked others)
    (hfits : ∀ entry ∈ entries, entry.2.2.toNat < 2 ^ entry.2.1.width)
    (hfits' : ∀ entry ∈ others, entry.2.2.toNat < 2 ^ entry.2.1.width) :
    weight entries < weight others ↔ entries.map (·.2.2) < others.map (·.2.2) := by
  induction hsame with
  | nil => simp [weight]
  | @cons a b below below' hfield _ ih =>
    obtain ⟨hshift, hbelow⟩ := hstacked
    obtain ⟨hshift', hbelow'⟩ := hstacked'
    obtain ⟨-, hrest⟩ := List.forall_mem_cons.1 hfits
    obtain ⟨-, hrest'⟩ := List.forall_mem_cons.1 hfits'
    have hlow : weight below < 2 ^ a.2.1.shift := hshift ▸ weight_lt hbelow hrest
    have hlow' : weight below' < 2 ^ a.2.1.shift := by
      rw [hfield, hshift']
      exact weight_lt hbelow' hrest'
    rw [List.map_cons, List.map_cons, List.cons_lt_cons_iff, ← ih hbelow hbelow' hrest hrest',
      UInt32.lt_iff_toNat_lt, ← UInt32.toNat_inj, weight, weight, ← hfield]
    exact place_mul_add_lt_iff hlow hlow'

/-- The digits of a word, cut at the widths of the fields, make up the word below all of them. -/
theorem weight_digits {word : Nat} (hstacked : Stacked entries)
    (hdigits : ∀ entry ∈ entries,
      entry.2.2.toNat = word / 2 ^ entry.2.1.shift % 2 ^ entry.2.1.width) :
    weight entries = word % 2 ^ (entries.map (·.2.1.width)).sum := by
  induction entries with
  | nil => simp [weight, Nat.mod_one]
  | cons entry below ih =>
    obtain ⟨hshift, hbelow⟩ := hstacked
    obtain ⟨hfirst, hrest⟩ := List.forall_mem_cons.1 hdigits
    rw [weight, hfirst, ih hbelow hrest, ← hshift, List.map_cons, List.sum_cons, ← hshift,
      Nat.add_comm entry.2.1.width, Nat.pow_add, Nat.mod_mul, Nat.add_comm]

end Stacked

variable {l : Layout} {id : Identifier} {raw : UInt32}

theorem validate_eq_error {error : CanError} (h : l.validate = .error error) :
    ∃ reason, error = .invalidLayout reason := by
  unfold validate at h
  split at h
  · exact ⟨_, (Except.error.inj h).symm⟩
  · split_ifs at h <;> exact ⟨_, (Except.error.inj h).symm⟩

/-- The identifier that a number is under the layout. -/
def unpacked (l : Layout) (h : l.Sound) (raw : UInt32) : Identifier where
  src := ((l.placed h).src.extract raw.toUInt64).toUInt32
  dst := ((l.placed h).dst.extract raw.toUInt64).toUInt32
  frameType := .ofBits ((l.placed h).frameType.extract raw.toUInt64).toUInt32
  remain := ((l.placed h).remain.extract raw.toUInt64).toUInt32
  transaction := ((l.placed h).transaction.extract raw.toUInt64).toUInt32

theorem unpack_eq (h : l.Sound) (raw : UInt32) : l.unpack raw = .ok (l.unpacked h raw) := by
  rw [unpack, fields_eq_ok h]
  rfl

theorem toNat_toUInt32_extract (field : BitField) (hwidth : field.width ≤ 32) (raw : UInt32) :
    (field.extract raw.toUInt64).toUInt32.toNat =
      raw.toNat / 2 ^ field.shift % 2 ^ field.width := by
  have hlt : (field.extract raw.toUInt64).toNat < 2 ^ 32 :=
    (extract_lt _ _).trans_le (Nat.pow_le_pow_right (by decide) hwidth)
  rw [UInt64.toNat_toUInt32, Nat.mod_eq_of_lt hlt, toNat_extract, UInt32.toNat_toUInt64]

/-! The fields of a layout are stacked, and as wide together as the layout is in total. -/

theorem stacked_entries (h : l.Sound) (id : Identifier) : Stacked (l.entries h id).reverse := by
  simp only [entries, List.reverse_cons, List.reverse_nil, List.nil_append, List.cons_append,
    Stacked, List.map_cons, List.map_nil, List.sum_cons, List.sum_nil, placed]
  refine ⟨?_, ?_, ?_, ?_, trivial, trivial⟩ <;> omega

theorem sum_widths (h : l.Sound) (id : Identifier) :
    ((l.entries h id).reverse.map (·.2.1.width)).sum = l.totalBits := by
  have htotal := h.total_le
  rw [identifierBits, total] at htotal
  simp only [entries, List.reverse_cons, List.reverse_nil, List.nil_append, List.cons_append,
    List.map_cons, List.map_nil, List.sum_cons, List.sum_nil, placed, totalBits, total, UInt32.size]
  omega

theorem fits_reverse (h : l.Sound) (hfits : l.Fits id) :
    ∀ entry ∈ (l.entries h id).reverse, entry.2.2.toNat < 2 ^ entry.2.1.width := by
  intro entry hentry
  exact (fits_iff_entries h id).1 hfits entry (List.mem_reverse.1 hentry)

/-- A packed identifier is the number that has its fields as digits. -/
theorem toNat_of_pack (h : l.Sound) (hpack : l.pack id = .ok raw) :
    raw.toNat = weight (l.entries h id).reverse ∧ raw.toNat < 2 ^ l.totalBits := by
  obtain ⟨hfits, rfl⟩ := (pack_eq_ok h).1 hpack
  have hword := toNat_insertAll_reverse (stacked_entries h id) (fits_reverse h hfits)
  have hlt := weight_lt (stacked_entries h id) (fits_reverse h hfits)
  rw [sum_widths] at hlt
  have hbits : l.totalBits ≤ 29 := Nat.le_trans (Nat.min_le_left _ _) h.total_le
  have hsmall : weight (l.entries h id).reverse < 2 ^ 32 :=
    hlt.trans_le (Nat.pow_le_pow_right (by decide) (by omega))
  rw [List.reverse_reverse] at hword
  rw [UInt64.toNat_toUInt32, hword, Nat.mod_eq_of_lt hsmall]
  exact ⟨rfl, hlt⟩

/-- Packed identifiers compare as their fields do, the source first. -/
theorem lt_iff_of_pack (h : l.Sound) {other : Identifier} {raw' : UInt32}
    (hpack : l.pack id = .ok raw) (hpack' : l.pack other = .ok raw') :
    raw < raw' ↔ id.ranks < other.ranks := by
  have hsame : List.Forall₂ (fun a b : String × BitField × UInt32 => a.2.1 = b.2.1)
      (l.entries h id).reverse (l.entries h other).reverse :=
    .cons rfl (.cons rfl (.cons rfl (.cons rfl (.cons rfl .nil))))
  rw [UInt32.lt_iff_toNat_lt, (toNat_of_pack h hpack).1, (toNat_of_pack h hpack').1]
  exact weight_lt_weight_iff hsame (stacked_entries h id) (stacked_entries h other)
    (fits_reverse h ((pack_eq_ok h).1 hpack).1) (fits_reverse h ((pack_eq_ok h).1 hpack').1)

/-- Every field that is read out of a number is a digit of it. -/
theorem digits_unpacked (h : l.Sound) (raw : UInt32) :
    ∀ entry ∈ l.entries h (l.unpacked h raw),
      entry.2.2.toNat = raw.toNat / 2 ^ entry.2.1.shift % 2 ^ entry.2.1.width := by
  have hwidth : ∀ entry ∈ l.entries h (l.unpacked h raw), entry.2.1.width ≤ 32 := by
    intro entry hentry
    have hend := end_le_of_mem_entries h _ entry hentry
    rw [identifierBits] at hend
    omega
  simp only [entries, List.forall_mem_cons] at hwidth ⊢
  obtain ⟨htransaction, hremain, htype, hdst, hsrc, -⟩ := hwidth
  refine ⟨toNat_toUInt32_extract _ htransaction raw, toNat_toUInt32_extract _ hremain raw, ?_,
    toNat_toUInt32_extract _ hdst raw, toNat_toUInt32_extract _ hsrc raw, by simp⟩
  rw [unpacked, FrameType.bits_ofBits]
  exact toNat_toUInt32_extract _ htype raw

theorem fits_unpacked (h : l.Sound) (raw : UInt32) : l.Fits (l.unpacked h raw) := by
  rw [fits_iff_entries h]
  intro entry hentry
  rw [digits_unpacked h raw entry hentry]
  exact Nat.mod_lt _ (Nat.two_pow_pos _)

theorem ofBits_bits_unpacked (h : l.Sound) (raw : UInt32) :
    FrameType.ofBits (l.unpacked h raw).frameType.bits = (l.unpacked h raw).frameType := by
  rw [unpacked, FrameType.bits_ofBits]

/-- Packed again, an identifier is the part of the number that the layout covers. -/
theorem pack_unpacked (h : l.Sound) (raw : UInt32) : ∃ packed : UInt32,
    l.pack (l.unpacked h raw) = .ok packed ∧ packed.toNat = raw.toNat % 2 ^ l.totalBits := by
  have hpack := (pack_eq_ok h).2 ⟨fits_unpacked h raw, rfl⟩
  refine ⟨_, hpack, ?_⟩
  rw [(toNat_of_pack h hpack).1, ← sum_widths h (l.unpacked h raw)]
  apply weight_digits (stacked_entries h _)
  intro entry hentry
  exact digits_unpacked h raw entry (List.mem_reverse.1 hentry)

theorem fits_iff_slots (h : l.Sound) (id : Identifier) : l.Fits id ↔ ∀ s ∈ l.slots id, s.Fits := by
  have hslots : l.slots id = (l.entries h id).map fun e => ⟨e.1, e.2.1.width, e.2.2⟩ := rfl
  rw [fits_iff_entries h, hslots, List.forall_mem_map]
  rfl

/-- Of the values that are too wide, the lowest one is reported. -/
theorem pack_of_not_fits (h : l.Sound) (hnot : ¬l.Fits id) :
    ∃ (before after : List Slot) (s : Slot), l.slots id = before ++ s :: after ∧
      (∀ lower ∈ before, lower.Fits) ∧ ¬s.Fits ∧
      l.pack id = .error (.fieldOverflow s.name s.value.toNat s.width) := by
  have hslots : l.slots id = (l.entries h id).map fun e => ⟨e.1, e.2.1.width, e.2.2⟩ := rfl
  classical
  obtain ⟨s, hfind⟩ : ∃ s, (l.slots id).find? (fun s => ¬s.Fits) = some s := by
    rw [← Option.isSome_iff_exists, List.find?_isSome]
    simpa [fits_iff_slots h] using hnot
  obtain ⟨hwide, before, after, hsplit, hbefore⟩ := List.find?_eq_some_iff_append.1 hfind
  have hlower : ∀ lower ∈ before, lower.Fits := by simpa using hbefore
  refine ⟨before, after, s, hsplit, hlower, by simpa using hwide, ?_⟩
  obtain ⟨low, high, hentries, rfl, hhigh⟩ := List.map_eq_append_iff.1 (hslots.symm.trans hsplit)
  obtain ⟨⟨name, field, value⟩, rest, rfl, rfl, -⟩ := List.map_eq_cons_iff.1 hhigh
  refine pack_of_too_wide h hentries (List.forall_mem_map.1 hlower) ?_
  simpa [Slot.Fits] using hwide

/-- Under every layout that passes its check, and no other, identifiers are numbers. An identifier
is packed just if its fields fit, or else the lowest field that does not is reported. Its number is
below the total width and unpacks to it again, any number unpacks to fields that fit and pack to the
part of it which the layout covers, and numbers compare as the fields do from the source down. -/
theorem packs_under_layout (l : Layout) :
    (∀ id, (∃ reason, l.pack id = .error (.invalidLayout reason)) ↔
      ∃ error, l.validate = .error error) ∧
    (∀ raw, (∃ reason, l.unpack raw = .error (.invalidLayout reason)) ↔
      ∃ error, l.validate = .error error) ∧
    (l.validate = .ok () →
      (∀ id, ((∃ raw, l.pack id = .ok raw) ↔ l.Fits id) ∧
        (¬l.Fits id → ∃ (before after : List Slot) (s : Slot), l.slots id = before ++ s :: after ∧
          (∀ lower ∈ before, lower.Fits) ∧ ¬s.Fits ∧
          l.pack id = .error (.fieldOverflow s.name s.value.toNat s.width)) ∧
        ∀ raw, l.pack id = .ok raw → raw.toNat < 2 ^ l.totalBits ∧
          (FrameType.ofBits id.frameType.bits = id.frameType → l.unpack raw = .ok id)) ∧
      (∀ raw, ∃ id, l.unpack raw = .ok id ∧ l.Fits id ∧
        FrameType.ofBits id.frameType.bits = id.frameType ∧
        ∃ packed : UInt32, l.pack id = .ok packed ∧
          packed.toNat = raw.toNat % 2 ^ l.totalBits) ∧
      ∀ a b rawA rawB, l.pack a = .ok rawA → l.pack b = .ok rawB →
        (rawA < rawB ↔ a.ranks < b.ranks)) := by
  cases hvalid : l.validate with
  | error error =>
    obtain ⟨reason, rfl⟩ := validate_eq_error hvalid
    have hfields : l.fields = .error (.invalidLayout reason) := by
      rw [fields, hvalid]
      rfl
    have hpack : ∀ id, l.pack id = .error (.invalidLayout reason) := by
      intro id
      rw [pack, hfields]
      rfl
    have hunpack : ∀ raw, l.unpack raw = .error (.invalidLayout reason) := by
      intro raw
      rw [unpack, hfields]
      rfl
    refine ⟨fun id => iff_of_true ⟨reason, hpack id⟩ ⟨_, rfl⟩,
      fun raw => iff_of_true ⟨reason, hunpack raw⟩ ⟨_, rfl⟩, ?_⟩
    intro hok
    cases hok
  | ok =>
    have h := validate_eq_ok.1 hvalid
    have hpack : ∀ id, (∃ raw, l.pack id = .ok raw) ↔ l.Fits id := by
      intro id
      constructor
      · rintro ⟨raw, hok⟩
        exact ((pack_eq_ok h).1 hok).1
      · intro hfits
        exact ⟨_, (pack_eq_ok h).2 ⟨hfits, rfl⟩⟩
    refine ⟨fun id => iff_of_false ?_ (by simp), fun raw => iff_of_false ?_ (by simp), fun _ =>
      ⟨fun id => ⟨hpack id, pack_of_not_fits h, fun raw hraw => ?_⟩, fun raw => ?_,
        fun a b rawA rawB hA hB => lt_iff_of_pack h hA hB⟩⟩
    · rintro ⟨reason, herror⟩
      by_cases hfits : l.Fits id
      · obtain ⟨raw, hok⟩ := (hpack id).2 hfits
        simp [hok] at herror
      · obtain ⟨_, _, s, -, -, -, hwide⟩ := pack_of_not_fits h hfits
        simp [hwide] at herror
    · simp [unpack_eq h]
    · exact ⟨(toNat_of_pack h hraw).2, unpack_pack h hraw⟩
    · exact ⟨_, unpack_eq h raw, fits_unpacked h raw, ofBits_bits_unpacked h raw,
        pack_unpacked h raw⟩

/-- In 19 bits, with a type of three: a type that is not in use is packed and unpacked like any
other, of two fields that are too wide the lower one is reported, and a number of 32 ones is cut. -/
theorem packs_under_narrow_layout :
    let l : Layout := ⟨4, 4, 3, 4, 4⟩
    let id : Identifier := ⟨1, 2, .reserved 6, 0, 3⟩
    l.validate = .ok () ∧ (∃ raw, l.pack id = .ok raw ∧ l.unpack raw = .ok id) ∧
      l.pack ⟨16, 2, .start, 16, 3⟩ = .error (.fieldOverflow "remain" 16 4) ∧
      (∃ ones, l.unpack 0xFFFFFFFF = .ok ones ∧
        ∃ packed : UInt32, l.pack ones = .ok packed ∧ packed.toNat = 2 ^ 19 - 1) := by
  intro l id
  have hvalid : l.validate = .ok () := rfl
  obtain ⟨hids, hraws, -⟩ := (packs_under_layout l).2.2 hvalid
  obtain ⟨hpack, -, hunpack⟩ := hids id
  obtain ⟨raw, hraw⟩ := hpack.2 ⟨by decide, by decide, by decide, by decide, by decide⟩
  obtain ⟨ones, hones, -, -, packed, hpacked, htoNat⟩ := hraws 0xFFFFFFFF
  exact ⟨hvalid, ⟨raw, hraw, (hunpack raw hraw).2 rfl⟩, by decide, ones, hones, packed, hpacked,
    htoNat.trans (by decide)⟩

end Layout
end SpaceLink
