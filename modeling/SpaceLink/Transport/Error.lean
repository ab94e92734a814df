import SpaceLink.Io.Error

/-! # Transport errors

What every kind of link can report. A failure inside a link that has no form of its own here is
kept as the name of the link and the text of the failure.
-/
namespace SpaceLink

inductive TransportError where
  | bind (address : String) (source : IoError)
  | connect (address : String) (source : IoError)
  | accept (source : IoError)
  | io (source : IoError)
  | invalidWrap (wrap : Nat)
  | fieldOverflow (value width : Nat)
  | unresolved (address : String)
  | shutdown
  | link (name : String) (reason : String)
  deriving DecidableEq

def TransportError.message : TransportError → String
  | bind address source => "failed to bind to " ++ address ++ ": " ++ source.text
  | connect address source => "failed to connect to " ++ address ++ ": " ++ source.text
  | accept source => "failed to accept connection: " ++ source.text
  | io source => "transport I/O error: " ++ source.text
  | invalidWrap wrap => s!"invalid wrap modulus {wrap} (must be >= 1)"
  | fieldOverflow value width => s!"value {value} does not fit in {width} bits"
  | unresolved address => "no usable address for " ++ address
  | shutdown => "transport shut down"
  | link name reason => name ++ " link error: " ++ reason

/-- A timeout, in milliseconds, may be left out and must not be zero. -/
def checkTimeout (timeout : Option Nat) : Except TransportError Unit :=
  if timeout = some 0 then .error (.io .zeroTimeout) else .ok ()

end SpaceLink
