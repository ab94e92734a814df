import SpaceLink.CommandLine.Arguments
import SpaceLink.CommandLine.Log
import SpaceLink.CommandLine.Presentation

/-! # Invocations

The commands of the program with their settings, and how arguments give them.
-/
namespace SpaceLink

inductive PayloadSource where
  | nothing
  | text (text : String)
  | file (path : String)

structure SendOptions where
  address : String
  config : Option String
  apid : Option UInt16
  payload : PayloadSource
  /-- The payload is the message body as it stands. -/
  raw : Bool

structure ListenOptions where
  address : String
  config : Option String
  apid : Option UInt16
  /-- How many messages to wait for; without end if there is no number. -/
  count : Option Nat
  raw : Bool

structure FragmentOptions where
  src : UInt32
  dst : UInt32
  frameData : Nat
  payload : PayloadSource

inductive Command where
  | send (options : SendOptions)
  | listen (options : ListenOptions)
  | fragment (options : FragmentOptions)
  | header (text : String)
  | version (extended : Bool)

def PayloadSource.paths : PayloadSource → List String
  | .file path => [path]
  | _ => []

def Command.paths : Command → List String
  | .send options => options.config.toList ++ options.payload.paths
  | .listen options => options.config.toList
  | .fragment options => options.payload.paths
  | _ => []

structure Invocation where
  /-- If there is none, the terminal decides. -/
  format : Option OutputFormat
  logFormat : LogFormat
  logLevel : LogLevel
  command : Command

namespace Invocation

/-- A number in `bits` bits. A minus sign before zero does not matter. -/
def bounded? (bits : Nat) (text : String) : Option Nat :=
  match text.toList with
  | '-' :: digits => (Text.digits? digits).filter (· = 0)
  | _ => Text.unsigned? (1 <<< bits - 1) text

/-- A number of things, in which a minus sign has no place. -/
def count? (text : String) : Option Nat := Text.unsigned? (UInt64.size - 1) text

def flag (name : String) : OptionForm := ⟨name, none⟩

def valued {α : Type} (name : String) (read : String → Option α) : OptionForm :=
  ⟨name, some fun value => (read value).isSome⟩

def textValued (name : String) : OptionForm := valued name some

/-- An option whose value is a path, which is never empty. -/
def pathValued (name : String) : OptionForm := ⟨name, some fun value => !value.isEmpty⟩

def payloadOptions : List OptionForm := [textValued "data", pathValued "file"]

def linkOptions : List OptionForm := [pathValued "config", valued "apid" (bounded? 16), flag "raw"]

def grammar : Grammar where
  options := [valued "format" OutputFormat.ofName?, valued "log-format" LogFormat.ofName?,
    valued "log-level" LogLevel.ofName?]
  commands := [
    ⟨"send", linkOptions ++ payloadOptions, 1⟩,
    ⟨"listen", linkOptions ++ [valued "count" count?], 1⟩,
    ⟨"fragment", [valued "src" (bounded? 32), valued "dst" (bounded? 32),
      valued "frame-data" count?] ++ payloadOptions, 0⟩,
    ⟨"header", [], 1⟩,
    ⟨"version", [flag "extended"], 0⟩]

/-- What the value of an option says, or the default if it is not given. -/
def valueOr {α : Type} (default : α) (read : String → Option α) (a : Arguments) (name : String) :
    α :=
  ((a.get? name).bind read).getD default

/-- Text and a file exclude each other. -/
def payload (a : Arguments) : Except Stop PayloadSource :=
  match a.get? "data", a.get? "file" with
  | none, none => .ok .nothing
  | some text, none => .ok (.text text)
  | none, some path => .ok (.file path)
  | some _, some _ => .error .malformed

def apid? (a : Arguments) : Option UInt16 :=
  ((a.get? "apid").bind (bounded? 16)).map UInt16.ofNat

def node (default : Nat) (a : Arguments) (name : String) : UInt32 :=
  UInt32.ofNat (valueOr default (bounded? 32) a name)

def commandOf (a : Arguments) : Except Stop Command :=
  match a.command, a.words with
  | "send", [address] => do
    return .send ⟨address, a.get? "config", apid? a, ← payload a, a.isSet "raw"⟩
  | "listen", [address] =>
    .ok (.listen ⟨address, a.get? "config", apid? a, (a.get? "count").bind count?, a.isSet "raw"⟩)
  | "fragment", [] => do
    return .fragment ⟨node 1 a "src", node 2 a "dst",
      valueOr CanConfig.classicFrameData count? a "frame-data", ← payload a⟩
  | "header", [text] => .ok (.header text)
  | "version", [] => .ok (.version (a.isSet "extended"))
  | _, _ => .error .malformed

def parse (args : List String) : Except Stop Invocation := do
  let a ← Arguments.read grammar args
  return {
    format := (a.get? "format").bind OutputFormat.ofName?
    logFormat := valueOr .text LogFormat.ofName? a "log-format"
    logLevel := valueOr .info LogLevel.ofName? a "log-level"
    command := ← commandOf a }

end Invocation
end SpaceLink
