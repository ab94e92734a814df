import SpaceLink.Can.Frame
import SpaceLink.Codec.Value
import SpaceLink.CommandLine.Payload
import SpaceLink.Json.Printer
import SpaceLink.Packet.Header
import SpaceLink.Text.Table
import SpaceLink.Transport.Message

/-! # Presentations

What a command shows, in every format that a user may ask for.
-/
namespace SpaceLink

inductive OutputFormat where
  | json | table | pretty | raw
  deriving DecidableEq

namespace OutputFormat

def all : List OutputFormat := [json, table, pretty, raw]

def name : OutputFormat → String
  | json => "json"
  | table => "table"
  | pretty => "pretty"
  | raw => "raw"

def ofName? (name : String) : Option OutputFormat := all.find? (·.name == name)

/-- A person at a terminal gets a table. -/
def usual (terminal : Bool) : OutputFormat := if terminal then table else json

end OutputFormat

structure Presentation where
  json : Json
  table : Text.Table
  lines : List String
  /-- The bytes to show for `raw`; the lines if there are none. -/
  raw : Option Bytes := none

namespace Presentation

def textOf (lines : List String) : Bytes := utf8 (String.join (lines.map (· ++ "\n")))

def render (shown : Presentation) : OutputFormat → Bytes
  | .json => textOf [shown.json.compact]
  | .table => textOf [shown.table.render]
  | .pretty => textOf shown.lines
  | .raw => shown.raw.getD (textOf shown.lines)

def ofHeader (h : Header) (dataLength : Nat) : Presentation where
  json := .record [
    ("version", .natural h.version.toNat),
    ("packet_type", .text h.packetType.name),
    ("secondary_header_flag", .bool h.secondaryHeader),
    ("apid", .natural h.apid.toNat),
    ("sequence_flags", .text h.sequenceFlags.name),
    ("sequence_count", .natural h.sequenceCount.toNat),
    ("data_length", .natural dataLength)]
  table := ⟨["FIELD", "VALUE"], [
    ["version", s!"{h.version.toNat}"],
    ["packet_type", h.packetType.label],
    ["secondary_header", s!"{h.secondaryHeader}"],
    ["apid", s!"{h.apid.toNat}"],
    ["sequence_flags", h.sequenceFlags.label],
    ["sequence_count", s!"{h.sequenceCount.toNat}"],
    ["data_length", s!"{dataLength}"]]⟩
  lines := [s!"version={h.version.toNat} type=" ++ h.packetType.label ++
    s!" sec_hdr={h.secondaryHeader} apid={h.apid.toNat} flags=" ++ h.sequenceFlags.label ++
    s!" count={h.sequenceCount.toNat} data_length={dataLength}"]

/-- One frame of a payload, with its identifier on the bus. -/
structure FrameRow where
  index : Nat
  frame : Fragment
  id : UInt32

namespace FrameRow

def frameType (row : FrameRow) : String := row.frame.identifier.frameType.label
def remain (row : FrameRow) : Nat := row.frame.identifier.remain.toNat
def transaction (row : FrameRow) : Nat := row.frame.identifier.transaction.toNat
def idText (row : FrameRow) : String := "0x" ++ Text.upperHex 8 row.id.toNat
def data (row : FrameRow) : String := Text.hexBytes row.frame.data

def json (row : FrameRow) : Json := .record [
  ("index", .natural row.index),
  ("frame_type", .text row.frameType),
  ("remain", .natural row.remain),
  ("transaction_id", .natural row.transaction),
  ("can_id", .text row.idText),
  ("data", .text row.data)]

def cells (row : FrameRow) : List String :=
  [s!"{row.index}", row.frameType, s!"{row.remain}", s!"{row.transaction}", row.idText, row.data]

/-- The width of the longest type that a sent frame has. -/
def typeWidth : Nat := 8

def line (row : FrameRow) : String :=
  s!"{row.index} " ++ row.idText ++ " " ++
    String.ofList (Text.Table.fill typeWidth row.frameType.toList) ++
    s!" remain={row.remain} tx={row.transaction} data=" ++ row.data

end FrameRow

def ofFrames (rows : List FrameRow) : Presentation where
  json := .array (rows.map FrameRow.json)
  table := ⟨["#", "TYPE", "REMAIN", "TX", "CAN ID", "DATA"], rows.map FrameRow.cells⟩
  lines := rows.map FrameRow.line

def propertiesLine (properties : Properties) : String :=
  " ".intercalate (properties.map fun (name, value) => name ++ "=" ++ value)

/-- A received message, what it carries, and the time of its arrival in seconds. -/
def ofMessage (message : Message) (payload : Bytes) (time : Nat) : Presentation where
  json := .record [
    ("source", .text message.source),
    ("payload_size", .natural payload.length),
    ("payload", .text (Payload.preview payload)),
    ("properties", .record (message.properties.map fun (name, value) => (name, .text value))),
    ("timestamp", .text s!"{time}")]
  table := ⟨["SOURCE", "SIZE", "PROPERTIES", "PAYLOAD"],
    [[message.source, s!"{payload.length}", propertiesLine message.properties,
      Payload.preview payload]]⟩
  lines := ["source=" ++ message.source ++ s!" size={payload.length} " ++
    propertiesLine message.properties ++ " payload=" ++ Payload.preview payload]
  raw := some payload

end Presentation
end SpaceLink
