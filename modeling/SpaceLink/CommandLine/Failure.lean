import SpaceLink.Link.Error

/-! # Failures of a command

A failure has an exit code, by which a script tells its cause, and a line for a person. A failure of
input or output has the code of its kind, under however many layers it was reported.
-/
namespace SpaceLink

structure Failure where
  code : Nat
  line : String
  deriving DecidableEq

namespace ExitCode

def success : Nat := 0
def failure : Nat := 1
/-- The arguments do not have the form of the command. -/
def arguments : Nat := 2
def transport : Nat := 3
def permissionDenied : Nat := 50
def dataInvalid : Nat := 60
/-- The arguments have the right form and make no sense. -/
def usage : Nat := 64
def timeout : Nat := 124
def internal : Nat := 125

def ofIo : IoErrorKind → Nat
  | .permissionDenied => permissionDenied
  | .timedOut | .wouldBlock => timeout
  | .connectionRefused => failure
  | _ => internal

end ExitCode

namespace Failure

def because (code : Nat) (context reason : String) : Failure := ⟨code, context ++ ": " ++ reason⟩

def ofIo (context : String) (e : IoError) : Failure := because (ExitCode.ofIo e.kind) context e.text

def ofTransport (context : String) : TransportError → Failure
  | .bind _ source | .connect _ source | .accept source | .io source => ofIo context source
  | .shutdown => because ExitCode.failure context TransportError.shutdown.message
  | other => because ExitCode.transport context other.message

def ofPacket (context : String) : PacketError → Failure
  | .io source => ofIo context source
  | .transport error => ofTransport context error
  | .connectionClosed => because ExitCode.failure context PacketError.connectionClosed.message
  | other => because ExitCode.dataInvalid context other.message

def ofCan (context : String) : CanError → Failure
  | .transport error => ofTransport context error
  | .busClosed => because ExitCode.failure context CanError.busClosed.message
  | .invalidLayout reason => because ExitCode.usage context (CanError.invalidLayout reason).message
  | .invalidFrameCapacity capacity =>
    because ExitCode.usage context (CanError.invalidFrameCapacity capacity).message
  | .fieldOverflow field value width =>
    because ExitCode.usage context (CanError.fieldOverflow field value width).message
  | other => because ExitCode.dataInvalid context other.message

def ofLink (context : String) : LinkError → Failure
  | .transport error => ofTransport context error
  | .packet error => ofPacket context error
  | .can error => ofCan context error
  | .configFile path source => ofIo (context ++ ": failed to read " ++ path) source
  | .invalidAddress address reason =>
    because ExitCode.usage context (LinkError.invalidAddress address reason).message
  | .config reason => because ExitCode.usage context (LinkError.config reason).message
  | .codec error => because ExitCode.dataInvalid context (LinkError.codec error).message
  | .json reason => because ExitCode.dataInvalid context (LinkError.json reason).message
  | .spawn source => because ExitCode.internal context (LinkError.spawn source).message

end Failure
end SpaceLink
