import SpaceLink.Json.Printer

/-! # Log records

What the program says about its work, apart from its result. A record is shown if its level is at
least as grave as the one asked for.
-/
namespace SpaceLink

inductive LogLevel where
  | error | warn | info | debug | trace
  deriving DecidableEq

namespace LogLevel

def all : List LogLevel := [error, warn, info, debug, trace]

def name : LogLevel → String
  | error => "error" | warn => "warn" | info => "info" | debug => "debug" | trace => "trace"

def label : LogLevel → String
  | error => "ERROR" | warn => "WARN" | info => "INFO" | debug => "DEBUG" | trace => "TRACE"

def ofName? (name : String) : Option LogLevel := all.find? (·.name == name)

/-- The gravest level has rank zero. -/
def rank (level : LogLevel) : Nat := all.idxOf level

end LogLevel

inductive LogFormat where
  | text | json
  deriving DecidableEq

namespace LogFormat

def all : List LogFormat := [text, json]

def name : LogFormat → String
  | text => "text"
  | json => "json"

def ofName? (name : String) : Option LogFormat := all.find? (·.name == name)

end LogFormat

structure LogRecord where
  level : LogLevel
  message : String
  fields : List (String × Json)

namespace LogRecord

def thread : String := "main"

/-- A value in a line of text: a string is written without quotes. -/
def fieldText : Json → String
  | .string text => text.getD ""
  | value => value.compact

def line (record : LogRecord) : String :=
  " ".intercalate ([record.level.label, thread, record.message] ++
    record.fields.map fun (name, value) => name ++ "=" ++ fieldText value)

def members (record : LogRecord) : List (String × Json) :=
  [("level", .text record.level.label),
    ("fields", .record (("message", .text record.message) :: record.fields)),
    ("threadName", .text thread)]

/-- A line with the time in front, if there is one. Levels are brought to one width behind it. -/
def render (time : Option String) (record : LogRecord) : LogFormat → String
  | .text => match time with
    | some time =>
      let gap := 5 - record.level.label.length
      time ++ String.ofList (List.replicate (gap + 1) ' ') ++ record.line
    | none => record.line
  | .json =>
    let time := (time.map fun time => ("timestamp", Json.text time)).toList
    (Json.record (time ++ record.members)).compact

end LogRecord
end SpaceLink
