import SpaceLink.Proofs.Packet.Alignment

/-! # However the bytes arrive

A reader goes by the bytes alone: pieces of any size and interruptions between them change neither
what it says nor what it leaves. It looks no further than it has to, so what stands behind a packet
does not matter; and a fault that it does come to is the last thing that it meets. `Regular` states
this of any step of a reader, and every way of putting steps together keeps it.
-/
namespace SpaceLink

namespace Source

/-- Enough bytes are taken without a look at what comes behind them. -/
theorem fill_append {source : Source} (hsmooth : source.Smooth) {needed : Nat}
    (henough : needed ≤ source.contents.length) (more : Source) :
    fill needed (source ++ more) = ((source.fill needed).1, (source.fill needed).2 ++ more) := by
  induction source generalizing needed with
  | nil =>
    obtain rfl : needed = 0 := Nat.le_zero.1 henough
    cases more with
    | nil => rfl
    | cons event more => cases event <;> simp [fill]
  | cons event rest ih =>
    obtain ⟨hevent, hrest⟩ := smooth_cons.1 hsmooth
    by_cases hzero : needed = 0
    · subst hzero
      cases event <;> simp [fill]
    cases event with
    | data chunk =>
      have hne : chunk ≠ [] := hevent
      have hchunk : chunk.isEmpty = false := by simpa using hne
      by_cases hle : chunk.length ≤ needed
      · have henough : needed - chunk.length ≤ (contents rest).length := by
          rw [contents_data, List.length_append] at henough
          omega
        simp [fill, hzero, hchunk, hle, ih hrest henough]
      · simp [fill, hzero, hchunk, hle]
    | fault error =>
      have herror : error.isInterrupted = true := hevent
      simp [fill, hzero, herror, ih hrest henough]

/-- A fault behind too few bytes is met, and nothing behind it. -/
theorem fill_fault {source : Source} (hsmooth : source.Smooth) {error : IoError}
    (herror : error.isInterrupted = false) {needed : Nat} (hshort : source.contents.length < needed)
    (more : Source) : fill needed (source ++ .fault error :: more) = (.error error, more) := by
  have hzero : needed ≠ 0 := Nat.ne_zero_of_lt hshort
  induction source generalizing needed with
  | nil => simp [fill, hzero, herror]
  | cons event rest ih =>
    obtain ⟨hevent, hrest⟩ := smooth_cons.1 hsmooth
    cases event with
    | data chunk =>
      have hne : chunk ≠ [] := hevent
      have hchunk : chunk.isEmpty = false := by simpa using hne
      rw [contents_data, List.length_append] at hshort
      have hle : chunk.length ≤ needed := by omega
      have hlater := ih hrest (show (contents rest).length < needed - chunk.length by omega)
        (by omega)
      simp [fill, hzero, hchunk, hle, hlater, Except.map]
    | fault interruption =>
      have hagain : interruption.isInterrupted = true := hevent
      simp [fill, hzero, hagain, ih hrest hshort hzero]

end Source

namespace PacketReading

variable {α β : Type}

/-- The reader wanted more bytes than there were. -/
def RanOut (result : Except PacketError α) : Prop :=
  result = .error .connectionClosed ∨
    ∃ expected received : Nat, result = .error (.truncated expected received)

theorem not_ranOut_ok (a : α) : ¬RanOut (.ok a : Except PacketError α) := by
  rintro (h | ⟨_, _, h⟩) <;> cases h

theorem ranOut_error {error : PacketError} :
    RanOut (.error error : Except PacketError α) ↔ RanOut (.error error : Except PacketError β) := by
  simp [RanOut]

/-- The step goes by the bytes alone, leaves no fault behind that was not there, looks no further
than it has to, and stops at a fault that it comes to. -/
structure Regular (step : PacketReading α) : Prop where
  same : ∀ {source other : Source}, source.Smooth → other.Smooth →
    source.contents = other.contents →
    (step source).1 = (step other).1 ∧ (step source).2.contents = (step other).2.contents
  smooth : ∀ {source : Source}, source.Smooth → (step source).2.Smooth
  stays : ∀ {source : Source} (more : Source), source.Smooth → ¬RanOut (step source).1 →
    step (source ++ more) = ((step source).1, (step source).2 ++ more)
  fails : ∀ {source : Source} {error : IoError} (more : Source), source.Smooth →
    error.isInterrupted = false → RanOut (step source).1 →
    step (source ++ .fault error :: more) = (.error (.io error), more)

theorem Regular.pure (a : α) : Regular (pure a : PacketReading α) where
  same _ _ hcontents := ⟨rfl, hcontents⟩
  smooth hsmooth := hsmooth
  stays _ _ _ := rfl
  fails _ _ _ hout := absurd hout (not_ranOut_ok a)

theorem Regular.throw {error : PacketError}
    (herror : ¬RanOut (.error error : Except PacketError α)) :
    Regular (throw error : PacketReading α) where
  same _ _ hcontents := ⟨rfl, hcontents⟩
  smooth hsmooth := hsmooth
  stays _ _ _ := rfl
  fails _ _ _ hout := absurd hout herror

theorem Regular.bind {step : PacketReading α} {next : α → PacketReading β} (hstep : Regular step)
    (hnext : ∀ a : α, Regular (next a)) : Regular (step >>= next) where
  same {source other} hsource hother hcontents := by
    obtain ⟨hresult, hleft⟩ := hstep.same hsource hother hcontents
    have hmiddle := hstep.smooth hsource
    have hmiddle' := hstep.smooth hother
    rcases hread : step source with ⟨error | a, middle⟩ <;>
      rcases hread' : step other with ⟨error' | a', middle'⟩ <;>
      simp only [hread, hread'] at hresult hleft hmiddle hmiddle' <;> cases hresult
    · rw [bind_of_error hread, bind_of_error hread']
      exact ⟨rfl, hleft⟩
    · rw [bind_of_ok hread, bind_of_ok hread']
      exact (hnext a).same hmiddle hmiddle' hleft
  smooth {source} hsmooth := by
    have hmiddle := hstep.smooth hsmooth
    rcases hread : step source with ⟨error | a, middle⟩ <;> rw [hread] at hmiddle
    · rw [bind_of_error hread]
      exact hmiddle
    · rw [bind_of_ok hread]
      exact (hnext a).smooth hmiddle
  stays {source} more hsmooth hout := by
    have hmiddle := hstep.smooth hsmooth
    have hfirst := hstep.stays more hsmooth
    rcases hread : step source with ⟨error | a, middle⟩ <;>
      simp only [hread] at hmiddle hfirst
    · rw [bind_of_error hread] at hout ⊢
      exact bind_of_error (hfirst (mt ranOut_error.1 hout))
    · rw [bind_of_ok hread] at hout ⊢
      rw [bind_of_ok (hfirst (not_ranOut_ok a))]
      exact (hnext a).stays more hmiddle hout
  fails {source error} more hsmooth herror hout := by
    have hmiddle := hstep.smooth hsmooth
    have hfirst := hstep.stays (.fault error :: more) hsmooth
    have hfailed := hstep.fails more hsmooth herror
    rcases hread : step source with ⟨first | a, middle⟩ <;>
      simp only [hread] at hmiddle hfirst hfailed
    · rw [bind_of_error hread] at hout
      exact bind_of_error (hfailed (ranOut_error.1 hout))
    · rw [bind_of_ok hread] at hout
      rw [bind_of_ok (hfirst (not_ranOut_ok a))]
      exact (hnext a).fails more hmiddle herror hout

theorem Regular.map {step : PacketReading α} (hstep : Regular step) (f : α → β) :
    Regular (f <$> step) := by
  rw [map_eq_pure_bind]
  exact hstep.bind fun a => .pure (f a)

/-- What a reader makes of the bytes when it wants so many of them. -/
def exactlyOf (received expected size : Nat) (bytes : Bytes) : Except PacketError Bytes :=
  if size ≤ bytes.length then .ok (bytes.take size)
  else if received + bytes.length = 0 then .error .connectionClosed
  else .error (.truncated expected (received + bytes.length))

theorem exactly_of_smooth {source : Source} (hsmooth : source.Smooth)
    (received expected size : Nat) : ∃ left : Source,
      exactly received expected size source =
        (exactlyOf received expected size source.contents, left) ∧
      left.Smooth ∧ left.contents = source.contents.drop size := by
  obtain ⟨left, hfill, hleft, hcontents⟩ := Source.fill_smooth hsmooth size
  refine ⟨left, ?_, hleft, hcontents⟩
  unfold exactly exactlyOf
  simp only [hfill, List.length_take]
  by_cases henough : size ≤ source.contents.length
  · simp only [Nat.min_eq_left henough, if_pos henough, if_true]
  · have hshort : source.contents.length ≤ size := by omega
    simp only [Nat.min_eq_right hshort, if_neg henough]
    have hlength : source.contents.length ≠ size := by omega
    rw [if_neg hlength]
    split_ifs
    · rfl
    · rfl

theorem ranOut_exactlyOf {received expected size : Nat} {bytes : Bytes} :
    RanOut (exactlyOf received expected size bytes) ↔ bytes.length < size := by
  unfold exactlyOf
  split_ifs with henough hnone
  · exact iff_of_false (not_ranOut_ok _) (by omega)
  · exact iff_of_true (.inl rfl) (by omega)
  · exact iff_of_true (.inr ⟨_, _, rfl⟩) (by omega)

theorem regular_exactly (received expected size : Nat) :
    Regular (exactly received expected size) where
  same hsource hother hcontents := by
    obtain ⟨left, hread, -, hleft⟩ := exactly_of_smooth hsource received expected size
    obtain ⟨left', hread', -, hleft'⟩ := exactly_of_smooth hother received expected size
    rw [hread, hread', hcontents]
    exact ⟨rfl, by rw [hleft, hleft', hcontents]⟩
  smooth hsmooth := by
    obtain ⟨left, hread, hleft, -⟩ := exactly_of_smooth hsmooth received expected size
    rw [hread]
    exact hleft
  stays {source} more hsmooth hout := by
    obtain ⟨left, hread, -⟩ := exactly_of_smooth hsmooth received expected size
    obtain ⟨rest, hfill, -⟩ := Source.fill_smooth hsmooth size
    rw [hread, ranOut_exactlyOf, Nat.not_lt] at hout
    have happend := Source.fill_append hsmooth hout more
    unfold exactly
    simp [happend, hfill, hout]
  fails {source error} more hsmooth herror hout := by
    obtain ⟨left, hread, -⟩ := exactly_of_smooth hsmooth received expected size
    rw [hread, ranOut_exactlyOf] at hout
    unfold exactly
    rw [Source.fill_fault hsmooth herror hout]

theorem regular_qualifier (f : Framing) : Regular (qualifier f) := by
  unfold qualifier
  split_ifs
  · exact (regular_exactly _ _ _).map _
  · exact .pure _

theorem regular_bodyLength (f : Framing) (dataLength : Nat) :
    Regular (bodyLength f dataLength) := by
  unfold bodyLength
  dsimp only
  split_ifs
  · exact .throw (by simp [RanOut])
  · exact .throw (by simp [RanOut])
  · exact .pure _

theorem regular_checksum (f : Framing) (received expected : Nat) (rawHeader body : Bytes) :
    Regular (checksum f received expected rawHeader body) := by
  unfold checksum
  cases f.crc with
  | none => exact .pure _
  | some crc =>
    apply (regular_exactly _ _ _).bind
    intro trailer
    dsimp only
    split_ifs
    · exact .throw (by simp [RanOut])
    · exact .pure _

theorem regular_packet (f : Framing) : Regular (packet f) := by
  unfold packet
  apply (regular_qualifier f).bind
  intro qualifier
  apply (regular_exactly _ _ _).bind
  intro rawHeader
  apply (regular_bodyLength f _).bind
  intro length
  apply (regular_exactly _ _ _).bind
  intro body
  apply (regular_checksum f _ _ _ _).bind
  intro _
  exact .pure _

end PacketReading

namespace Packet
open PacketReading

theorem afterReads_same (f : Framing) {source other : Source} (hsource : source.Smooth)
    (hother : other.Smooth) (hcontents : source.contents = other.contents) (reads : Nat) :
    (afterReads f reads source).Smooth ∧ (afterReads f reads other).Smooth ∧
      (afterReads f reads source).contents = (afterReads f reads other).contents := by
  induction reads with
  | zero => exact ⟨hsource, hother, hcontents⟩
  | succ reads ih =>
    obtain ⟨hsource, hother, hcontents⟩ := ih
    rw [afterReads_succ, afterReads_succ]
    exact ⟨(regular_packet f).smooth hsource, (regular_packet f).smooth hother,
      ((regular_packet f).same hsource hother hcontents).2⟩

/-- Until a read runs out of bytes, what stands behind the stream does not matter. -/
theorem afterReads_append {f : Framing} {source : Source} (hsmooth : source.Smooth) {reads : Nat}
    (hearlier : ∀ k < reads, ¬RanOut (read f (afterReads f k source)).1) (more : Source) :
    afterReads f reads (source ++ more) = afterReads f reads source ++ more := by
  induction reads with
  | zero => rfl
  | succ reads ih =>
    have hbefore := (afterReads_same f hsmooth hsmooth rfl reads).1
    have hread := (regular_packet f).stays more hbefore (hearlier reads (Nat.lt_succ_self reads))
    rw [afterReads_succ, afterReads_succ, ih fun k hk => hearlier k (Nat.lt_succ_of_lt hk), read,
      hread]
    rfl

/-- Reads of a stream that comes in pieces, with interruptions, have the results of reads of the
stream in one piece and take as many bytes each. As long as no read runs out of bytes, none looks at
what comes behind the stream; the first one that does so and comes to a fault fails there and
then. -/
theorem reads_any_delivery (f : Framing) {source : Source} (hsmooth : source.Smooth)
    (reads : Nat) :
    let before := afterReads f reads source
    ((read f before).1 = (read f (afterReads f reads (.ofBytes source.contents))).1 ∧
      before.contents = (afterReads f reads (.ofBytes source.contents)).contents) ∧
    ((∀ k < reads, ¬RanOut (read f (afterReads f k source)).1) →
      (¬RanOut (read f before).1 → ∀ more : Source,
        read f (afterReads f reads (source ++ more)) =
          ((read f before).1, (read f before).2 ++ more)) ∧
      (RanOut (read f before).1 → ∀ (error : IoError) (more : Source),
        error.isInterrupted = false →
          read f (afterReads f reads (source ++ .fault error :: more)) =
            (.error (.io error), more))) := by
  obtain ⟨hbefore, hone, hcontents⟩ := afterReads_same f hsmooth
    (Source.smooth_ofBytes source.contents) (Source.contents_ofBytes _).symm reads
  intro before
  refine ⟨⟨((regular_packet f).same hbefore hone hcontents).1, hcontents⟩, ?_⟩
  intro hearlier
  constructor
  · intro hout more
    rw [afterReads_append hsmooth hearlier]
    exact (regular_packet f).stays more hbefore hout
  · intro hout error more herror
    rw [afterReads_append hsmooth hearlier]
    exact (regular_packet f).fails more hbefore herror hout

/-- A packet in pieces, and the next one cut short by a fault inside its header. -/
theorem reads_until_fault :
    let f : Framing := { qualifierInMessage := true, crc := some .ccittFalse }
    let signal : ReadEvent := .fault (.ofKind .interrupted)
    let source : Source := [.data [0x12], signal, .data [0x34, 0x30, 5, 0xC0, 7, 0], signal, signal,
      .data [3, 0xAA, 0xBB, 0x6A, 0xF4, 0x12], .data [0x34, 0x30]]
    let reset : IoError := .ofKind .connectionReset
    let lost : Source := source ++ .fault reset :: [.data [5]]
    let p : Packet := {
      header := { version := 1, packetType := .telecommand, apid := 5, sequenceCount := 7 }
      qualifier := 0x1234
      body := [0xAA, 0xBB] }
    (read f source).1 = (read f (.ofBytes source.contents)).1 ∧ (read f lost).1 = .ok p ∧
      read f (afterReads f 1 lost) = (.error (.io reset), [.data [5]]) := by
  intro f signal source reset lost p
  have hsmooth : source.Smooth := by
    simp [Source.Smooth, source, signal, ReadEvent.IsSmooth, IoError.isInterrupted, IoError.ofKind]
  have hfirst : (read f source).1 = .ok p := by decide +kernel
  have hsecond : (read f (afterReads f 1 source)).1 = .error (.truncated 8 3) := by decide +kernel
  have hhad : ¬RanOut (read f source).1 := by
    rw [hfirst]
    exact not_ranOut_ok p
  obtain ⟨⟨hsame, -⟩, hstays⟩ := reads_any_delivery f hsmooth 0
  obtain ⟨hwhole, -⟩ := hstays (by simp)
  have hlost : read f lost = ((read f source).1, (read f source).2 ++ .fault reset :: [.data [5]]) :=
    hwhole hhad (.fault reset :: [.data [5]])
  refine ⟨hsame, ?_, ?_⟩
  · simp only [hlost, hfirst]
  · have hearlier : ∀ k < 1, ¬RanOut (read f (afterReads f k source)).1 := by
      intro k hk
      obtain rfl : k = 0 := Nat.lt_one_iff.1 hk
      exact hhad
    obtain ⟨-, hfails⟩ := (reads_any_delivery f hsmooth 1).2 hearlier
    exact hfails (.inr ⟨8, 3, hsecond⟩) reset [.data [5]] rfl

end Packet
end SpaceLink
