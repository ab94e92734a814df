import SpaceLink.Packet.Writer
import SpaceLink.Proofs.Packet.Bijection
import SpaceLink.Proofs.Run

/-! # What a call of a writer leaves behind

A sink may take few bytes at a time, interrupt, close or fail at any write and any flush. `Writing`
and `Settling` tell what the answers to the writes and the flushes of one call come to. From them: a
call sends the encodings of its own packets, or a part of them from the front on, and what earlier
calls left in the buffer is never sent.
-/
namespace SpaceLink

section Answers
variable {α : Type}

/-- The answers to the next calls: those that are set down, and behind them always the same. -/
def answersTo (script : List α) (last : α) (calls : Nat) : List α :=
  script.take calls ++ List.replicate (calls - script.length) last

@[simp] theorem answersTo_zero (script : List α) (last : α) : answersTo script last 0 = [] := by
  simp [answersTo]

@[simp] theorem answersTo_nil (last : α) (calls : Nat) :
    answersTo [] last calls = List.replicate calls last := by
  simp [answersTo]

@[simp] theorem answersTo_cons (answer : α) (script : List α) (last : α) (calls : Nat) :
    answersTo (answer :: script) last (calls + 1) = answer :: answersTo script last calls := by
  simp [answersTo]

end Answers

theorem IoError.ne_of_isInterrupted {error other : IoError} (herror : error.isInterrupted = false)
    (hother : other.isInterrupted = true) : error ≠ other := by
  rintro rfl
  rw [hother] at herror
  cases herror

namespace Sink

/-- A buffer is written, with these answers and this result, and so much of it is taken. -/
inductive Writing : Bytes → List WriteEvent → Except SinkError Unit → Bytes → Prop
  | done : Writing [] [] (.ok ()) []
  | takes {buffer : Bytes} {limit : Nat} {answers : List WriteEvent}
      {result : Except SinkError Unit} {taken : Bytes} :
      buffer ≠ [] → limit ≠ 0 → Writing (buffer.drop limit) answers result taken →
      Writing buffer (.accept limit :: answers) result (buffer.take limit ++ taken)
  | again {buffer : Bytes} {error : IoError} {answers : List WriteEvent}
      {result : Except SinkError Unit} {taken : Bytes} :
      error.isInterrupted = true → Writing buffer answers result taken →
      Writing buffer (.fault error :: answers) result taken
  | closed {buffer : Bytes} : buffer ≠ [] → Writing buffer [.accept 0] (.error .closed) []
  | fails {buffer : Bytes} {error : IoError} :
      buffer ≠ [] → error.isInterrupted = false →
      Writing buffer [.fault error] (.error (.fault error)) []

theorem writing_push (buffer : Bytes) (events : List WriteEvent) {limit : Nat}
    (hlimit : buffer.length ≤ limit) :
    Writing buffer (answersTo events (.accept limit) (push buffer events).calls)
      (push buffer events).result (push buffer events).accepted := by
  induction events generalizing buffer with
  | nil =>
    by_cases hempty : buffer = []
    · subst hempty
      exact .done
    -- Behind the script one write takes what is left.
    have hpos := List.length_pos_of_ne_nil hempty
    have hall := Writing.takes hempty (show limit ≠ 0 by omega)
      (show Writing (buffer.drop limit) [] (.ok ()) [] by
        rw [List.drop_of_length_le hlimit]
        exact .done)
    rw [List.take_of_length_le hlimit, List.append_nil] at hall
    simpa [push, hempty] using hall
  | cons event rest ih =>
    by_cases hempty : buffer = []
    · subst hempty
      simpa [push] using Writing.done
    have hbuffer : ¬buffer.isEmpty = true := by simpa using hempty
    cases event with
    | accept count =>
      by_cases hzero : count = 0
      · subst hzero
        simpa [push, hempty] using Writing.closed hempty
      · have hlater := ih (buffer.drop count) (by rw [List.length_drop]; omega)
        simpa [push, hempty, hzero] using Writing.takes hempty hzero hlater
    | fault error =>
      cases herror : error.isInterrupted with
      | true => simpa [push, hempty, herror] using Writing.again herror (ih buffer hlimit)
      | false => simpa [push, hempty, herror] using Writing.fails hempty herror

namespace Writing

variable {buffer taken : Bytes} {answers : List WriteEvent} {result : Except SinkError Unit}

theorem taken_prefix (h : Writing buffer answers result taken) : taken <+: buffer := by
  induction h with
  | done => exact List.prefix_rfl
  | @takes buffer limit answers result taken _ _ _ ih =>
    calc buffer.take limit ++ taken
      _ <+: buffer.take limit ++ buffer.drop limit := (List.prefix_append_right_inj _).2 ih
      _ = buffer := List.take_append_drop limit buffer
  | again _ _ ih => exact ih
  | closed _ => exact List.nil_prefix
  | fails _ _ => exact List.nil_prefix

theorem ok_iff (h : Writing buffer answers result taken) : result = .ok () ↔ taken = buffer := by
  induction h with
  | done => simp
  | @takes buffer limit answers result taken _ _ _ ih =>
    rw [ih]
    constructor
    · rintro rfl
      exact List.take_append_drop limit buffer
    · intro hall
      exact List.append_cancel_left (hall.trans (List.take_append_drop limit buffer).symm)
  | again _ _ ih => exact ih
  | closed hne => simp [hne.symm]
  | fails hne _ => simp [hne.symm]

theorem closed_iff (h : Writing buffer answers result taken) :
    result = .error .closed ↔ .accept 0 ∈ answers := by
  induction h with
  | done => simp
  | takes _ hlimit _ ih => simp [ih, hlimit.symm]
  | again _ _ ih => simp [ih]
  | closed _ => simp
  | fails _ _ => simp

theorem fault_iff (h : Writing buffer answers result taken) (error : IoError) :
    result = .error (.fault error) ↔ error.isInterrupted = false ∧ .fault error ∈ answers := by
  induction h with
  | done => simp
  | takes _ _ _ ih => simp [ih]
  | again hagain _ ih =>
    refine ih.trans (and_congr_right fun herror => ?_)
    simp [IoError.ne_of_isInterrupted herror hagain]
  | closed _ => simp
  | fails _ herror =>
    constructor
    · rintro ⟨⟩
      exact ⟨herror, List.mem_singleton_self _⟩
    · rintro ⟨-, hmem⟩
      cases List.mem_singleton.1 hmem
      rfl

end Writing

/-- Flushes with these answers and this result. -/
inductive Settling : List (Option IoError) → Except SinkError Unit → Prop
  | done : Settling [none] (.ok ())
  | again {error : IoError} {answers : List (Option IoError)} {result : Except SinkError Unit} :
      error.isInterrupted = true → Settling answers result → Settling (some error :: answers) result
  | fails {error : IoError} :
      error.isInterrupted = false → Settling [some error] (.error (.fault error))

theorem settling_settle (answers : List (Option IoError)) :
    Settling (answersTo answers none (settle answers).2.1) (settle answers).1 := by
  induction answers with
  | nil => exact .done
  | cons answer rest ih =>
    cases answer with
    | none => simpa [settle] using Settling.done
    | some error =>
      cases herror : error.isInterrupted with
      | true => simpa [settle, herror] using Settling.again herror ih
      | false => simpa [settle, herror] using Settling.fails herror

namespace Settling

variable {answers : List (Option IoError)} {result : Except SinkError Unit}

theorem ok_iff (h : Settling answers result) : result = .ok () ↔ none ∈ answers := by
  induction h with
  | done => simp
  | again _ _ ih => simp [ih]
  | fails _ => simp

theorem ne_closed (h : Settling answers result) : result ≠ .error .closed := by
  induction h with
  | done => simp
  | again _ _ ih => exact ih
  | fails _ => simp

theorem fault_iff (h : Settling answers result) (error : IoError) :
    result = .error (.fault error) ↔ error.isInterrupted = false ∧ some error ∈ answers := by
  induction h with
  | done => simp
  | again hagain _ ih =>
    refine ih.trans (and_congr_right fun herror => ?_)
    simp [IoError.ne_of_isInterrupted herror hagain]
  | fails herror =>
    constructor
    · rintro ⟨⟩
      exact ⟨herror, List.mem_singleton_self _⟩
    · rintro ⟨-, hmem⟩
      cases List.mem_singleton.1 hmem
      rfl

end Settling

/-- A buffer is sent, with these answers to its writes and flushes: there is no flush but behind a
writing that succeeds. -/
inductive Sending : Bytes → List WriteEvent → List (Option IoError) → Except SinkError Unit →
    Bytes → Prop
  | flushed {buffer taken : Bytes} {writes : List WriteEvent} {flushes : List (Option IoError)}
      {result : Except SinkError Unit} :
      Writing buffer writes (.ok ()) taken → Settling flushes result →
      Sending buffer writes flushes result taken
  | stopped {buffer taken : Bytes} {writes : List WriteEvent} {error : SinkError} :
      Writing buffer writes (.error error) taken → Sending buffer writes [] (.error error) taken

namespace Sending

variable {buffer taken : Bytes} {writes : List WriteEvent} {flushes : List (Option IoError)}
  {result : Except SinkError Unit}

theorem taken_prefix (h : Sending buffer writes flushes result taken) : taken <+: buffer := by
  cases h with
  | flushed hwriting _ => exact hwriting.taken_prefix
  | stopped hwriting => exact hwriting.taken_prefix

theorem taken_of_flush (h : Sending buffer writes flushes result taken) (hflush : flushes ≠ []) :
    taken = buffer := by
  cases h with
  | flushed hwriting _ => exact hwriting.ok_iff.1 rfl
  | stopped _ => exact absurd rfl hflush

theorem ok_iff (h : Sending buffer writes flushes result taken) :
    result = .ok () ↔ taken = buffer ∧ none ∈ flushes := by
  cases h with
  | flushed hwriting hsettling => simp [hsettling.ok_iff, hwriting.ok_iff.1]
  | stopped _ => simp

theorem closed_iff (h : Sending buffer writes flushes result taken) :
    result = .error .closed ↔ .accept 0 ∈ writes := by
  cases h with
  | flushed hwriting hsettling => simp [hsettling.ne_closed, ← hwriting.closed_iff]
  | stopped hwriting => exact hwriting.closed_iff

theorem fault_iff (h : Sending buffer writes flushes result taken) (error : IoError) :
    result = .error (.fault error) ↔
      error.isInterrupted = false ∧ (.fault error ∈ writes ∨ some error ∈ flushes) := by
  cases h with
  | flushed hwriting hsettling =>
    have hwrites : ¬(error.isInterrupted = false ∧ .fault error ∈ writes) := by
      simp [← hwriting.fault_iff]
    rw [hsettling.fault_iff, and_or_left, or_iff_right hwrites]
  | stopped hwriting => simp [hwriting.fault_iff]

end Sending

/-- The answers to the writes made between two states of a sink. -/
def writesUntil (sink after : Sink) (size : Nat) : List WriteEvent :=
  answersTo sink.writes (.accept size) (after.writeCalls - sink.writeCalls)

/-- The answers to the flushes made between two states of a sink. -/
def flushesUntil (sink after : Sink) : List (Option IoError) :=
  answersTo sink.flushes none (after.flushCalls - sink.flushCalls)

theorem exists_sending_send (sink : Sink) (buffer : Bytes) :
    let after := (sink.send buffer).2
    ∃ taken : Bytes, after.written = sink.written ++ taken ∧
      Sending buffer (sink.writesUntil after buffer.length) (sink.flushesUntil after)
        (sink.send buffer).1 taken := by
  have hwriting := writing_push buffer sink.writes le_rfl
  cases hresult : (push buffer sink.writes).result with
  | ok _ =>
    rw [hresult] at hwriting
    simp only [writesUntil, flushesUntil, send, hresult, Nat.add_sub_cancel_left]
    exact ⟨_, rfl, .flushed hwriting (settling_settle sink.flushes)⟩
  | error error =>
    rw [hresult] at hwriting
    simp only [writesUntil, flushesUntil, send, hresult, Nat.add_sub_cancel_left, Nat.sub_self,
      answersTo_zero]
    exact ⟨_, rfl, .stopped hwriting⟩

end Sink

namespace PacketError

variable {result : Except SinkError Unit}

theorem mapError_ofSink_eq_ok : result.mapError ofSink = .ok () ↔ result = .ok () := by
  cases result <;> simp [Except.mapError]

theorem mapError_ofSink_eq_closed :
    result.mapError ofSink = .error .connectionClosed ↔ result = .error .closed := by
  rcases result with (_ | _) | _ <;> simp [Except.mapError, ofSink]

theorem mapError_ofSink_eq_io (error : IoError) :
    result.mapError ofSink = .error (.io error) ↔ result = .error (.fault error) := by
  rcases result with (_ | _) | _ <;> simp [Except.mapError, ofSink]

end PacketError

/-- Packets that have these encodings, one each, are encoded back to back. -/
theorem Packet.encodeAll_of_map_encode {f : Framing} {packets : List Packet} {wires : List Bytes}
    (h : packets.map (encode f) = wires.map .ok) : encodeAll f packets = .ok wires.flatten := by
  have hframeable : ∀ p ∈ packets, p.Frameable f := by
    intro p hp
    have hmem : p.encode f ∈ wires.map .ok := h ▸ List.mem_map_of_mem hp
    obtain ⟨wire, -, hwire⟩ := List.mem_map.1 hmem
    exact PacketWriting.frameable_of_encode_eq_ok hwire.symm
  have hwires : packets.map (wire f) = wires := by
    apply List.map_injective_iff.2 (fun _ _ => Except.ok.inj : Function.Injective Except.ok)
    rw [← h, List.map_map]
    exact List.map_congr_left fun p hp => (encode_of_frameable (hframeable p hp)).symm
  rw [encodeAll_of_frameable hframeable, List.flatMap_def, hwires]

namespace PacketWriter

/-- A call of a writer. -/
inductive Call where
  | one (p : Packet)
  | batch (packets : List Packet)

def Call.packets : Call → List Packet
  | .one p => [p]
  | .batch packets => packets

def perform (writer : PacketWriter) : Call → Except PacketError Unit × PacketWriter
  | .one p => writer.write p
  | .batch packets => writer.writeAll packets

theorem write_eq_writeAll (writer : PacketWriter) (p : Packet) :
    writer.write p = writer.writeAll [p] := by
  have hone : [p].forM (PacketWriting.packet writer.framing) =
      PacketWriting.packet writer.framing p := bind_pure_unit
  rw [write, writeAll, hone]

theorem perform_eq_writeAll (writer : PacketWriter) (call : Call) :
    writer.perform call = writer.writeAll call.packets := by
  cases call with
  | one p => exact writer.write_eq_writeAll p
  | batch packets => rfl

/-- What stands in the buffer before a call does not matter to it. -/
theorem writeAll_eq (writer : PacketWriter) (packets : List Packet) :
    ((writer.writeAll packets).1, (writer.writeAll packets).2.sink) =
        Packet.writeAll writer.framing packets writer.sink ∧
      (writer.writeAll packets).2.framing = writer.framing := by
  unfold writeAll gather clear Packet.writeAll Packet.encodeAll PacketWriting.toBytes
  dsimp only
  rcases packets.forM (PacketWriting.packet writer.framing) .empty with ⟨error | _, buffer⟩
  · exact ⟨rfl, rfl⟩
  · exact ⟨rfl, rfl⟩

/-- No call changes the framing. -/
theorem framing_runLog (writer : PacketWriter) (calls : List Call) :
    (runLog perform writer calls).2.framing = writer.framing := by
  induction calls generalizing writer with
  | nil => rfl
  | cons call calls ih =>
    have hcall := (writer.writeAll_eq call.packets).2
    rw [← perform_eq_writeAll] at hcall
    exact (ih _).trans hcall

/-- Whatever calls came before: a call with a packet that cannot be encoded fails as the first such
packet does, and the sink does not hear of it. Any other call sends the encodings of its packets
from the front on, as far as the sink takes them; it succeeds if all of them were taken and a flush
behind that succeeded, finds the connection closed if a write took nothing, and else fails as the
write or the flush did that was no interruption. -/
theorem sends_own_prefix (writer : PacketWriter) (earlier : List Call) (call : Call) :
    let before := (runLog perform writer earlier).2
    let result := (before.perform call).1
    let after := (before.perform call).2
    (∀ (front back : List Packet) (p : Packet) (error : PacketError),
      call.packets = front ++ p :: back →
      (∀ q ∈ front, ∃ wire : Bytes, q.encode writer.framing = .ok wire) →
      p.encode writer.framing = .error error →
      result = .error error ∧ after.sink = before.sink) ∧
    ∀ wires : List Bytes, call.packets.map (Packet.encode writer.framing) = wires.map .ok →
      let writes := before.sink.writesUntil after.sink wires.flatten.length
      let flushes := before.sink.flushesUntil after.sink
      ∃ taken : Bytes, taken <+: wires.flatten ∧
        after.sink.written = before.sink.written ++ taken ∧
        (flushes ≠ [] → taken = wires.flatten) ∧
        (result = .ok () ↔ taken = wires.flatten ∧ none ∈ flushes) ∧
        (result = .error .connectionClosed ↔ .accept 0 ∈ writes) ∧
        ∀ error : IoError, result = .error (.io error) ↔
          error.isInterrupted = false ∧ (.fault error ∈ writes ∨ some error ∈ flushes) := by
  intro before result after
  have hframing : before.framing = writer.framing := framing_runLog writer earlier
  obtain ⟨hcall, -⟩ := before.writeAll_eq call.packets
  rw [← perform_eq_writeAll, hframing] at hcall
  obtain ⟨hresult, hsink⟩ := Prod.ext_iff.1 hcall
  constructor
  · intro front back p error hpackets hfront herror
    have hframeable : ∀ q ∈ front, q.Frameable writer.framing := by
      intro q hq
      obtain ⟨wire, hwire⟩ := hfront q hq
      exact PacketWriting.frameable_of_encode_eq_ok hwire
    have hrefused : Packet.encodeAll writer.framing call.packets = .error error := by
      rw [hpackets]
      exact PacketWriting.encodeAll_of_encode_eq_error hframeable herror
    rw [Packet.writeAll, hrefused] at hresult hsink
    exact ⟨hresult, hsink⟩
  · intro wires hwires
    rw [Packet.writeAll, Packet.encodeAll_of_map_encode hwires] at hresult hsink
    obtain ⟨taken, hwritten, hsending⟩ := before.sink.exists_sending_send wires.flatten
    have hafter : after.sink = (before.sink.send wires.flatten).2 := hsink
    have hmapped : result = (before.sink.send wires.flatten).1.mapError PacketError.ofSink := hresult
    rw [← hafter] at hwritten hsending
    intro writes flushes
    refine ⟨taken, hsending.taken_prefix, hwritten, hsending.taken_of_flush, ?_, ?_, ?_⟩
    · rw [hmapped, PacketError.mapError_ofSink_eq_ok]
      exact hsending.ok_iff
    · rw [hmapped, PacketError.mapError_ofSink_eq_closed]
      exact hsending.closed_iff
    · intro error
      rw [hmapped, PacketError.mapError_ofSink_eq_io]
      exact hsending.fault_iff error

/-- A batch that fails after seven of its bytes, and the packet sent behind it. -/
theorem sends_behind_failure :
    let packet (count : UInt16) (body : Bytes) : Packet :=
      { header := { packetType := .telemetry, apid := 12, sequenceCount := count }, body := body }
    let sink : Sink := {
      writes := [.accept 3, .fault (.ofKind .interrupted), .accept 4, .fault (.ofKind .timedOut),
        .accept 2]
      flushes := [some (.ofKind .interrupted)] }
    let writer : PacketWriter := { framing := { crc := none }, sink := sink }
    let failed := writer.perform (.batch [packet 0 [1, 2], packet 1 [3]])
    let sent := failed.2.perform (.one (packet 2 [4, 5]))
    failed.1 = .error (.io (.ofKind .timedOut)) ∧
      failed.2.sink.written = [0x00, 12, 0xC0, 0, 0, 1, 1] ∧ sent.1 = .ok () ∧
      sent.2.sink.written = failed.2.sink.written ++ [0x00, 12, 0xC0, 2, 0, 1, 4, 5] := by
  intro packet sink writer failed sent
  have hfailed : failed.1 = .error (.io (.ofKind .timedOut)) := by decide +kernel
  have hleft : failed.2.sink.written = [0x00, 12, 0xC0, 0, 0, 1, 1] := by decide +kernel
  have hsent : sent.1 = .ok () := by decide +kernel
  have hwire : [packet 2 [4, 5]].map (Packet.encode writer.framing) =
      [[0x00, 12, 0xC0, 2, 0, 1, 4, 5]].map .ok := by decide +kernel
  obtain ⟨-, hsends⟩ := sends_own_prefix writer [.batch [packet 0 [1, 2], packet 1 [3]]]
    (.one (packet 2 [4, 5]))
  obtain ⟨taken, -, hwritten, -, hok, -⟩ := hsends _ hwire
  obtain ⟨rfl, -⟩ := hok.1 hsent
  exact ⟨hfailed, hleft, hsent, hwritten⟩

end PacketWriter
end SpaceLink
