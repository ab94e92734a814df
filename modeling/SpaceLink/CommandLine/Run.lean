import SpaceLink.CommandLine.Fragmenting
import SpaceLink.CommandLine.HeaderText
import SpaceLink.CommandLine.Listening
import SpaceLink.CommandLine.Sending

/-! # Running a command

A command ends with a report, but for the one that listens: it goes on with every peer that connects.
-/
namespace SpaceLink

inductive Outcome where
  | done (report : Report)
  | listening (l : Listening)

/-- Shows the fields of a header and the length of the data behind it. -/
def HeaderText.present (text : String) : Except Failure Presentation := do
  let bytes ← (read text).mapError fun error => ⟨ExitCode.usage, error.message⟩
  let (header, length) := Header.ofBytes bytes
  return .ofHeader header (length.toNat + 1)

def BuildFacts.lines (facts : BuildFacts) : List String := [
  "name: " ++ programName,
  "version: " ++ programVersion,
  "target_os: " ++ facts.system,
  "target_arch: " ++ facts.architecture,
  "build_target: " ++ facts.target,
  "rustc: " ++ facts.compiler,
  "git_hash: " ++ facts.revision,
  "features: link=true, cli=true",
  "codecs: plain, split",
  "links: spp/tcp, cfp/can"]

namespace Invocation

def run (world : World) (invocation : Invocation) : Except Failure Outcome :=
  let format := invocation.format.getD (.usual world.terminal)
  match invocation.command with
  | .send options => (Sending.prepare world options).map fun s => .done (s.run world.network)
  | .listen options => (Listening.bind world format options).map .listening
  | .fragment options => (options.run world format).map .done
  | .header text => (HeaderText.present text).map fun shown =>
    .done { output := shown.render format }
  | .version extended => .ok (.done
    { output := Presentation.textOf (if extended then world.build.lines else [versionLine]) })

/-- A failed command has a report too. -/
def outcome (world : World) (invocation : Invocation) : Outcome :=
  match invocation.run world with
  | .ok outcome => outcome
  | .error failure => .done (.ofFailure failure)

end Invocation
end SpaceLink
