import SpaceLink.CommandLine.Failure
import SpaceLink.Proofs.Link.Unframed

/-! # The exit code of a failure of input or output

However many layers reported it, such a failure has the code and the line of its kind, as long as
every layer is looked at by its own function. One form is lost when a link is known only as a
transport: what a stream of packets reports about its own writes.
-/
namespace SpaceLink

/-- The failure of input or output that an error was made from. -/
def TransportError.ioCause? : TransportError → Option IoError
  | bind _ source | connect _ source | accept source | io source => some source
  | _ => none

def PacketError.ioCause? : PacketError → Option IoError
  | io source => some source
  | transport error => error.ioCause?
  | _ => none

def CanError.ioCause? : CanError → Option IoError
  | transport error => error.ioCause?
  | _ => none

/-- A file that was not read and a thread that was not started are none of the layers below. -/
def LinkError.ioCause? : LinkError → Option IoError
  | transport error => error.ioCause?
  | packet error => error.ioCause?
  | can error => error.ioCause?
  | _ => none

theorem ExitCode.ofIo_ne_transport (kind : IoErrorKind) : ofIo kind ≠ transport := by
  cases kind <;> decide

/-- Only the writes of a packet stream lose their cause. -/
theorem LinkError.ioCause?_toTransport {e : LinkError} {source : IoError}
    (h : e.ioCause? = some source) (hne : e ≠ .packet (.io source)) :
    e.toTransport.ioCause? = some source := by
  cases e with
  | transport error => exact h
  | packet error =>
    cases error with
    | io cause =>
      cases h
      exact absurd rfl hne
    | transport error => exact h
    | _ => cases h
  | can error =>
    cases error with
    | transport error => exact h
    | _ => cases h
  | _ => cases h

namespace Failure
variable {context : String} {source : IoError}

theorem ofTransport_eq_ofIo {e : TransportError} (h : e.ioCause? = some source) :
    ofTransport context e = ofIo context source := by
  cases e with
  | bind | connect | accept | io => cases h; rfl
  | _ => cases h

theorem ofPacket_eq_ofIo {e : PacketError} (h : e.ioCause? = some source) :
    ofPacket context e = ofIo context source := by
  cases e with
  | io => cases h; rfl
  | transport => exact ofTransport_eq_ofIo h
  | _ => cases h

theorem ofCan_eq_ofIo {e : CanError} (h : e.ioCause? = some source) :
    ofCan context e = ofIo context source := by
  cases e with
  | transport => exact ofTransport_eq_ofIo h
  | _ => cases h

theorem ofLink_eq_ofIo {e : LinkError} (h : e.ioCause? = some source) :
    ofLink context e = ofIo context source := by
  cases e with
  | transport => exact ofTransport_eq_ofIo h
  | packet => exact ofPacket_eq_ofIo h
  | can => exact ofCan_eq_ofIo h
  | _ => cases h

/-- A write of a packet stream is reported as a failure of the link, whatever its kind. -/
theorem ofTransport_packet_io (context : String) (source : IoError) :
    ofTransport context (LinkError.packet (.io source)).toTransport =
      because ExitCode.transport context ("spp link error: packet I/O error: " ++ source.text) := rfl

/-- The link and the transport that it is used as give a failure of input or output the same code,
that of its kind, unless a packet stream reports a write of its own. -/
theorem code_toTransport_iff {e : LinkError} (h : e.ioCause? = some source) (context : String) :
    ofLink context e = ofIo context source ∧
      ofTransport context e.toTransport =
        (if e = .packet (.io source) then
          because ExitCode.transport context ("spp link error: packet I/O error: " ++ source.text)
        else ofIo context source) ∧
      ((ofTransport context e.toTransport).code = (ofLink context e).code ↔
        e ≠ .packet (.io source)) := by
  have hlink : ofLink context e = ofIo context source := ofLink_eq_ofIo h
  by_cases he : e = .packet (.io source)
  · refine ⟨hlink, ?_, ?_⟩
    · rw [if_pos he, he]
      exact ofTransport_packet_io context source
    · rw [hlink, he, ofTransport_packet_io]
      exact iff_of_false (ExitCode.ofIo_ne_transport source.kind).symm (by simp)
  · have htransport : ofTransport context e.toTransport = ofIo context source :=
      ofTransport_eq_ofIo (LinkError.ioCause?_toTransport h he)
    exact ⟨hlink, by rw [if_neg he, htransport], iff_of_true (by rw [hlink, htransport]) he⟩

theorem code_of_refused_connection :
    let refused : LinkError :=
      .can (.transport (.connect "127.0.0.1:1" (.ofKind .connectionRefused)))
    (ofLink "connect failed" refused).code = 1 ∧
      (ofTransport "connect failed" refused.toTransport).code =
        (ofLink "connect failed" refused).code := by
  intro refused
  have hcause : refused.ioCause? = some (.ofKind .connectionRefused) := rfl
  obtain ⟨hlink, -, hcodes⟩ := code_toTransport_iff hcause "connect failed"
  refine ⟨?_, hcodes.2 (by simp [refused])⟩
  rw [hlink]
  rfl

/-- A write that timed out has the code of a timeout, and as a transport that of any link. -/
theorem codes_of_late_write :
    let late : LinkError := .packet (.io (.ofKind .timedOut))
    late.ioCause? = some (.ofKind .timedOut) ∧
      (ofLink "send failed" late).code = 124 ∧
      (ofTransport "send failed" late.toTransport).code = 3 := by
  decide

/-- So it is with every body that the stream does not take: the kind of the failure is not told. -/
theorem ofTransport_of_failed_write {link : PacketLink} {body wire : Bytes}
    (hopen : link.closed = false)
    (hwire : Packet.encodeAll link.config.framing (link.cut body).1 = .ok wire)
    (hfault : (link.sink.send wire).1 = .error (.fault source)) :
    (Transport.send link body).1.mapError (ofTransport context) = .error
      (because ExitCode.transport context
        ("spp link error: packet I/O error: " ++ source.text)) := by
  have hsent : (link.send body).1 = .error (.packet (.io source)) := by
    have hcut : (link.cut body).2.closed = false := hopen
    obtain ⟨hwrite, -⟩ := PacketLink.write_of_encodeAll_eq_ok hcut hwire
    have hsink : ((link.cut body).2.sink.send wire).1 = .error (.fault source) := hfault
    rw [PacketLink.send_of_open hopen, hwrite, hsink]
    rfl
  calc (Transport.send link body).1.mapError (ofTransport context)
      = ((link.send body).1.mapError LinkError.toTransport).mapError (ofTransport context) := rfl
    _ = .error (ofTransport context (LinkError.packet (.io source)).toTransport) := by
      rw [hsent]
      rfl
    _ = _ := by rw [ofTransport_packet_io]

end Failure
end SpaceLink
