import SpaceLink.CommandLine.Invocation

/-! # Reports

What a command leaves behind: its output, records of its work, and why it failed, if it did.
-/
namespace SpaceLink

structure Report where
  output : Bytes := []
  log : List LogRecord := []
  failure : Option Failure := none

namespace Report

def ofFailure (failure : Failure) : Report := { failure := some failure }

def code (report : Report) : Nat := (report.failure.map Failure.code).getD ExitCode.success

/-- The lines beside the output: the records that are grave enough, and why the command failed. -/
def complaints (report : Report) (level : LogLevel) (format : LogFormat) (time : Option String) :
    List String :=
  ((report.log.filter fun record => record.level.rank ≤ level.rank).map fun record =>
    record.render time format) ++
  (report.failure.map fun failure => "error: " ++ failure.line).toList

end Report

def programName : String := "malwire"
def programVersion : String := "0.1.0"

def versionLine : String := programName ++ " " ++ programVersion

def usage : List String := [
  "Usage: " ++ programName ++ " [--format FORMAT] [--log-format FORMAT] [--log-level LEVEL] COMMAND",
  "  send ADDR [--config FILE] [--apid N] [--data TEXT | --file FILE] [--raw]",
  "  listen ADDR [--config FILE] [--apid N] [--count N] [--raw]",
  "  fragment [--src N] [--dst N] [--frame-data N] [--data TEXT | --file FILE]",
  "  header HEX",
  "  version [--extended]"]

def Stop.report : Stop → Report
  | .malformed => .ofFailure ⟨ExitCode.arguments, "\n".intercalate ("invalid arguments" :: usage)⟩
  | .help => { output := Presentation.textOf usage }
  | .version => { output := Presentation.textOf [versionLine] }

end SpaceLink
