/-! # Input and output errors

What a stream, a socket or a file can fail with: a kind, which decides how the failure is handled,
and the text that a person reads.
-/
namespace SpaceLink

inductive IoErrorKind where
  | notFound | permissionDenied | connectionRefused | connectionReset | connectionAborted
  | notConnected | networkUnreachable | addressInUse | brokenPipe | wouldBlock | timedOut
  | interrupted | invalidInput | invalidData | unexpectedEof | writeZero | other
  deriving DecidableEq

namespace IoErrorKind

/-- The text of an error that has a kind and nothing else to say. -/
def text : IoErrorKind → String
  | notFound => "entity not found"
  | permissionDenied => "permission denied"
  | connectionRefused => "connection refused"
  | connectionReset => "connection reset"
  | connectionAborted => "connection aborted"
  | notConnected => "not connected"
  | networkUnreachable => "network unreachable"
  | addressInUse => "address in use"
  | brokenPipe => "broken pipe"
  | wouldBlock => "operation would block"
  | timedOut => "timed out"
  | interrupted => "operation interrupted"
  | invalidInput => "invalid input parameter"
  | invalidData => "invalid data"
  | unexpectedEof => "unexpected end of file"
  | writeZero => "write zero"
  | other => "other error"

end IoErrorKind

structure IoError where
  kind : IoErrorKind
  text : String
  deriving DecidableEq

namespace IoError

def ofKind (kind : IoErrorKind) : IoError := ⟨kind, kind.text⟩

/-- What the system reports by number. -/
def systemErrors : List (Nat × IoErrorKind × String) := [
  (1, .permissionDenied, "Operation not permitted"),
  (2, .notFound, "No such file or directory"),
  (4, .interrupted, "Interrupted system call"),
  (11, .wouldBlock, "Resource temporarily unavailable"),
  (13, .permissionDenied, "Permission denied"),
  (20, .other, "Not a directory"),
  (21, .other, "Is a directory"),
  (22, .invalidInput, "Invalid argument"),
  (32, .brokenPipe, "Broken pipe"),
  (36, .other, "File name too long"),
  (98, .addressInUse, "Address already in use"),
  (99, .other, "Cannot assign requested address"),
  (101, .networkUnreachable, "Network is unreachable"),
  (103, .connectionAborted, "Software caused connection abort"),
  (104, .connectionReset, "Connection reset by peer"),
  (107, .notConnected, "Transport endpoint is not connected"),
  (110, .timedOut, "Connection timed out"),
  (111, .connectionRefused, "Connection refused"),
  (113, .other, "No route to host")]

def ofNumber (number : Nat) : IoError :=
  let (kind, text) := (systemErrors.lookup number).getD (.other, s!"Unknown error {number}")
  ⟨kind, text ++ s!" (os error {number})"⟩

/-- A call that a signal cut short; it is made again. -/
def isInterrupted (e : IoError) : Bool := e.kind == .interrupted

def noSuchFile : IoError := ofNumber 2
def wouldBlock : IoError := ofNumber 11
def notDirectory : IoError := ofNumber 20
def isDirectory : IoError := ofNumber 21
def brokenPipe : IoError := ofNumber 32
def nameTooLong : IoError := ofNumber 36
def addressInUse : IoError := ofNumber 98
def addressNotAvailable : IoError := ofNumber 99
def networkUnreachable : IoError := ofNumber 101

def zeroTimeout : IoError := ⟨.invalidInput, "cannot set a 0 duration timeout"⟩
def cutShort : IoError := ⟨.unexpectedEof, "failed to fill whole buffer"⟩
def invalidSocketAddress : IoError := ⟨.invalidInput, "invalid socket address"⟩
def invalidSocketNumber : IoError := ⟨.invalidInput, "invalid port value"⟩
def zeroInText : IoError := ⟨.invalidInput, "file name contained an unexpected NUL byte"⟩

/-- Why the address of a host is not found. -/
def lookupFailed (reason : String) : IoError :=
  ⟨.other, "failed to lookup address information: " ++ reason⟩

def nameUnknown : IoError := lookupFailed "Name or service not known"
def nameUnanswered : IoError := lookupFailed "Temporary failure in name resolution"

def notUtf8 : IoError := ⟨.invalidData, "stream did not contain valid UTF-8"⟩

end IoError
end SpaceLink
