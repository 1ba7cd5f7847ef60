import TraceJournal.Record.Reader

/-!
# Documents

What a store keeps: a body that the store does not look into, with the time and the serial number
by which documents are found. A record is kept as the body of a document; when it is taken out
again, time and serial number of the document count.

Library tracelog-store, module `document`; SPEC_FULL §3 and §4.6.
-/

namespace TraceJournal

/-- A stored value with the time and the serial number by which it is found. Source: tracelog-store
`Document`. -/
structure Document where
  time : Instant
  serial : UInt64
  body : Json
  deriving DecidableEq

namespace Document

/-- The place of the document in the order of traces. Source: tracelog-store `Document.position`. -/
def position (d : Document) : Position := ⟨d.time, d.serial⟩

/-- The document that keeps a record. Source: tracelog-store `JsonMapper.serialize`. -/
def ofRecord (r : Record) : Document := ⟨r.time, r.serial, r.toJson⟩

/-- The record that a document keeps. Source: tracelog-store `JsonMapper.deserialize`. -/
def toRecord (d : Document) : Except DecodeError Record := do
  let r ← Record.ofJson d.body
  return { r with time := d.time, serial := d.serial }

/-- The fields of a document in the order in which they are written. -/
def fields (d : Document) : List (String × Json) := [
  ("time", .text d.time.zuluText),
  ("serial", .ofWord d.serial),
  ("body", d.body)]

/-- The document as a value, with sorted fields. Source: tracelog-store `Document`, as serde derives
it. -/
def toJson (d : Document) : Json := .ofFields d.fields

/-- The document as the text of an object, with its fields in the order of the structure. Source:
tracelog-store `SegmentTraceStore.insert`, where it uses serde_json `to_vec`. -/
def render (d : Document) : String := (Json.object d.fields).render

/-- The highest serial number of some documents. Source: tracelog-store `last_serial` of both
stores. -/
def highestSerial? (documents : List Document) : Option UInt64 :=
  (documents.map Document.serial).max?

/-- The fields of a document that were met so far. -/
structure Draft where
  time : Option Instant
  serial : Option UInt64
  body : Option Json

/-- The draft without any field. -/
def Draft.empty : Draft := ⟨none, none, none⟩

/-- The document of a draft, or the first field that is missing. -/
def Draft.finish (d : Draft) : Except String Document :=
  match d.time, d.serial, d.body with
  | none, _, _ => .error "time"
  | _, none, _ => .error "serial"
  | _, _, none => .error "body"
  | some time, some serial, some body => .ok ⟨time, serial, body⟩

/-- The fields of a document in values. -/
def slots : List (Decode.Slot Json Draft) := [
  ⟨"time", fun d v => do return { d with time := some (← Decode.instant v) }⟩,
  ⟨"serial", fun d v => do return { d with serial := some (← Decode.word v) }⟩,
  ⟨"body", fun d v => .ok { d with body := some v }⟩]

/-- Decodes a document. Source: tracelog-store `Document`, by serde_json `from_value`. -/
def ofJson (value : Json) : Except DecodeError Document :=
  Decode.structureOf "struct Document" slots Draft.empty Draft.finish value

/-- How a document is read from text. -/
def schema : Json.Schema Draft Document where
  start := Draft.empty
  fields := [
    Record.textField "time" (·.time.isSome) (fun _ => Record.readInstant) fun d v =>
      { d with time := some v },
    Record.textField "serial" (·.serial.isSome) (fun _ => Json.readWord) fun d v =>
      { d with serial := some v },
    Record.textField "body" (·.body.isSome) Json.readValue fun d v => { d with body := some v }]
  finish d := d.finish.toOption

/-- Reads a document that is the whole of a text. Source: tracelog-store `read_frame`, where it uses
serde_json `from_slice`. -/
def read (input : List UInt8) : Except Json.Fault Document :=
  Json.readWhole (Json.readStructure schema Json.maxDepth) input

end Document

end TraceJournal
