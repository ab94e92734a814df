import SpaceLink.Link.Address
import SpaceLink.Proofs.Outcome
import SpaceLink.Proofs.Text.Numeral
import SpaceLink.Proofs.Text.Split

/-! # Texts that are addresses

A text is split three times: at the first `://`, at the first slash behind it, and at the last colon
before that. `Spells` says what has to stand between. An address that has been parsed has no slash
in its authority, so what is printed around it does not move any of the three places.
-/
namespace SpaceLink.PacketAddress

/-- What stands behind the scheme, where there is one; no scheme but that of packets will do. -/
def IsBehindScheme (text rest : List Char) : Prop :=
  ¬[':', '/', '/'] <:+: text ∧ rest = text ∨
    Text.SplitsFirst [':', '/', '/'] text packetScheme.toList rest

/-- A host that is not empty, a colon, and the number of a port. -/
def IsAuthority (text : List Char) : Prop :=
  ∃ host number port, text = host ++ ':' :: number ∧ ':' ∉ number ∧ host ≠ [] ∧
    Text.IsUnsigned 65535 number port

def IsApid (text : List Char) : Option UInt16 → Prop
  | none => text = []
  | some n => Text.IsUnsigned 2047 text n.toNat

/-- The text is an address, and it is the address `a`. -/
structure Spells (text : List Char) (a : PacketAddress) : Prop where
  exists_parts : ∃ rest number, IsBehindScheme text rest ∧
    (rest = a.authority.toList ∧ number = [] ∨ rest = a.authority.toList ++ '/' :: number) ∧
    IsApid number a.apid
  notMem : '/' ∉ a.authority.toList
  isAuthority : IsAuthority a.authority.toList

variable {text rest : List Char} {a : PacketAddress}

theorem withoutScheme_eq_ok_iff : withoutScheme text = .ok rest ↔ IsBehindScheme text rest := by
  rw [withoutScheme, IsBehindScheme, ← Text.splitFirst?_eq_none_iff,
    ← Text.splitFirst?_eq_some_iff]
  cases Text.splitFirst? [':', '/', '/'] text with
  | none => simp [eq_comm]
  | some sides =>
    obtain ⟨scheme, behind⟩ := sides
    by_cases hscheme : scheme = packetScheme.toList
    · simp [hscheme]
    · simp [hscheme]

theorem readApid_eq_ok_iff {apid : Option UInt16} : readApid text = .ok apid ↔ IsApid text apid := by
  rw [readApid]
  constructor
  · intro h
    split at h
    · rename_i hempty
      cases h
      exact List.isEmpty_iff.1 hempty
    · split at h
      · cases h
      · rename_i n hword
        split at h
        · cases h
        · rename_i hlimit
          cases h
          exact ⟨Nat.le_of_not_lt hlimit, (Text.word16?_eq_some_iff.1 hword).2⟩
  · intro h
    cases apid with
    | none =>
      obtain rfl : text = [] := h
      rfl
    | some n =>
      have h : Text.IsUnsigned 2047 text n.toNat := h
      have hlimit : ¬Header.maxApid < n := Nat.not_lt.2 h.1
      have hword : Text.word16? text = some n :=
        Text.word16?_eq_some_iff.2 (h.mono (Nat.le_trans h.1 (by decide)))
      rw [if_neg (mt List.isEmpty_iff.1 h.ne_nil), hword]
      exact if_neg hlimit

theorem isAuthority_iff : isAuthority text = true ↔ IsAuthority text := by
  rw [isAuthority]
  constructor
  · intro h
    split at h
    · rename_i host number hsplit
      obtain ⟨happend, hnumber⟩ := Text.splitLast?_eq_some_iff.1 hsplit
      rw [Bool.and_eq_true] at h
      obtain ⟨port, hport⟩ := Option.isSome_iff_exists.1 h.2
      exact ⟨host, number, port.toNat, happend, hnumber, by simpa using h.1,
        Text.word16?_eq_some_iff.1 hport⟩
    · cases h
  · rintro ⟨host, number, port, happend, hnumber, hhost, hport⟩
    have hword : Text.word16? number = some (UInt16.ofNat port) := by
      rw [Text.word16?_eq_some_iff, UInt16.toNat_ofNat_of_lt' (Nat.lt_succ_of_le hport.1)]
      exact hport
    rw [Text.splitLast?_eq_some_iff.2 ⟨happend, hnumber⟩]
    simp [hhost, hword]

theorem parts_eq_ok_iff : parts text = .ok a ↔ Spells text a := by
  constructor
  · intro h
    obtain ⟨rest, hrest, h⟩ := exists_of_bind_eq_ok h
    cases hsplit : (Text.splitFirst? ['/'] rest).getD (rest, []) with
    | mk authority number =>
      rw [hsplit] at h
      obtain ⟨apid, hapid, h⟩ := exists_of_bind_eq_ok h
      split at h
      · rename_i hauthority
        cases h
        obtain ⟨hmem, hparts⟩ := Text.splitFirst?_getD_iff.1 hsplit
        have hlist : (String.ofList authority).toList = authority := String.toList_ofList
        rw [← hlist] at hmem hparts hauthority
        exact ⟨⟨rest, number, withoutScheme_eq_ok_iff.1 hrest, hparts, readApid_eq_ok_iff.1 hapid⟩,
          hmem, isAuthority_iff.1 hauthority⟩
      · cases h
  · rintro ⟨⟨rest, number, hrest, hparts, hapid⟩, hmem, hauthority⟩
    have hsplit := Text.splitFirst?_getD_iff.2 ⟨hmem, hparts⟩
    rw [parts, withoutScheme_eq_ok_iff.2 hrest]
    simp only [bind, Except.bind, hsplit, readApid_eq_ok_iff.2 hapid, isAuthority_iff.2 hauthority,
      if_true, String.ofList_toList]
    rfl

/-- Nothing in front of the printed scheme and nothing in the authority can be taken for a separator
that is printed around them. -/
theorem spells_render (h : Spells text a) : Spells a.render.toList a := by
  obtain ⟨⟨-, number, -, -, hapid⟩, hmem, hauthority⟩ := h
  have hcolon : ':' ∉ packetScheme.toList := by decide
  have hscheme := Text.splitsFirst_of_notMem hcolon ['/', '/']
  refine ⟨?_, hmem, hauthority⟩
  cases happ : a.apid with
  | none =>
    have hrender : a.render.toList =
        packetScheme.toList ++ [':', '/', '/'] ++ a.authority.toList := by
      simp [render, happ]
    exact ⟨a.authority.toList, [], .inr (hrender ▸ hscheme _), .inl ⟨rfl, rfl⟩, rfl⟩
  | some n =>
    have hn : Text.IsUnsigned 2047 number n.toNat := by simpa [happ, IsApid] using hapid
    have hrender : a.render.toList = packetScheme.toList ++ [':', '/', '/'] ++
        (a.authority.toList ++ '/' :: (toString n.toNat).toList) := by
      simp [render, happ]
      rfl
    exact ⟨_, _, .inr (hrender ▸ hscheme _), .inr rfl, Text.isUnsigned_toString hn.1⟩

/-- A text is parsed exactly if it is an address, and then as the one that it is; what the address is
printed as is parsed as that address again. -/
theorem parses_addresses (text : String) :
    (∀ a, parse text = .ok a ↔ Spells text.toList a) ∧
      (∀ a, parse text = .ok a → parse a.render = .ok a) ∧
      ((∀ a, ¬Spells text.toList a) →
        ∃ reason, parse text = .error (.invalidAddress text reason)) := by
  have hparse : ∀ (text : String) (a : PacketAddress),
      parse text = .ok a ↔ Spells text.toList a := by
    intro text a
    rw [← parts_eq_ok_iff, parse]
    cases parts text.toList with
    | error reason => exact ⟨(nomatch ·), (nomatch ·)⟩
    | ok found => exact ⟨fun h => congrArg _ (Except.ok.inj h), fun h => congrArg _ (Except.ok.inj h)⟩
  refine ⟨hparse text, ?_, ?_⟩
  · intro a h
    exact (hparse _ a).2 (spells_render ((hparse text a).1 h))
  · intro hnone
    cases hparts : parts text.toList with
    | error reason => exact ⟨reason, by rw [parse, hparts]; rfl⟩
    | ok a => exact absurd (parts_eq_ok_iff.1 hparts) (hnone a)

/-- A host with colons, a sign and leading zeros. The port is kept as it was written, and the number
of the application is printed anew. -/
theorem parses_signed_port :
    parse "malspp://[::1]:+080/+0042" = .ok ⟨"[::1]:+080", some 42⟩ ∧
      parse "malspp://[::1]:+080/42" = .ok ⟨"[::1]:+080", some 42⟩ := by
  have h : parse "malspp://[::1]:+080/+0042" = .ok ⟨"[::1]:+080", some 42⟩ := by decide +kernel
  exact ⟨h, (parses_addresses _).2.1 _ h⟩

end SpaceLink.PacketAddress
