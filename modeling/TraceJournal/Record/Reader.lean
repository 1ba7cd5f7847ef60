import TraceJournal.Json.Schema
import TraceJournal.Record.Basic

/-!
# Reading records

A record comes from a value or straight from JSON text. Either way `args` and `serial` may be
missing, and both readings go field by field through the same draft.

Library tracelog-types, module `record`, as serde derives the reading of it.
-/

namespace TraceJournal.Record

/-- The fields of a record that were met so far. -/
structure Draft where
  time : Option Instant
  owner : Option String
  interface : Option String
  method : Option String
  args : Option (List Json)
  serial : Option UInt64

/-- The draft without any field. -/
def Draft.empty : Draft := ⟨none, none, none, none, none, none⟩

/-- The record of a draft, or the first field that is missing. -/
def Draft.finish (d : Draft) : Except String Record :=
  match d.time, d.owner, d.interface, d.method with
  | none, _, _, _ => .error "time"
  | _, none, _, _ => .error "owner"
  | _, _, none, _ => .error "interface"
  | _, _, _, none => .error "method"
  | some time, some owner, some interface, some method =>
    .ok { time, owner, interface, method, args := d.args.getD [], serial := d.serial.getD 0 }

/-- The fields of a record in values. -/
def slots : List (Decode.Slot Json Draft) := [
  ⟨"time", fun d v => do return { d with time := some (← Decode.instant v) }⟩,
  ⟨"owner", fun d v => do return { d with owner := some (← Decode.text v) }⟩,
  ⟨"interface", fun d v => do return { d with interface := some (← Decode.text v) }⟩,
  ⟨"method", fun d v => do return { d with method := some (← Decode.text v) }⟩,
  ⟨"args", fun d v => do return { d with args := some (← Decode.sequence v) }⟩,
  ⟨"serial", fun d v => do return { d with serial := some (← Decode.word v) }⟩]

/-- Decodes a record. Source: tracelog-types `TraceRecord`, by serde_json `from_value`. -/
def ofJson (value : Json) : Except DecodeError Record :=
  Decode.structureOf "struct TraceRecord" slots Draft.empty Draft.finish value

/-- Reads an instant. -/
def readInstant : Json.Reader Instant := fun input => do
  let (s, rest) ← Json.readText input
  match Instant.read s with
  | .ok t => .ok (t, rest)
  | .error _ => .error .mistyped

/-- A field whose value is read by `reader` and kept by `keep`. -/
def textField {δ β : Type} (name : String) (isSet : δ → Bool) (reader : Nat → Json.Reader β)
    (keep : δ → β → δ) : Json.Field δ where
  name := name
  isSet := isSet
  read depth draft input := do
    let (value, rest) ← reader depth input
    .ok (keep draft value, rest)

/-- How a record is read from text. -/
def schema : Json.Schema Draft Record where
  start := Draft.empty
  fields := [
    textField "time" (·.time.isSome) (fun _ => readInstant) fun d v => { d with time := some v },
    textField "owner" (·.owner.isSome) (fun _ => Json.readText) fun d v =>
      { d with owner := some v },
    textField "interface" (·.interface.isSome) (fun _ => Json.readText) fun d v =>
      { d with interface := some v },
    textField "method" (·.method.isSome) (fun _ => Json.readText) fun d v =>
      { d with method := some v },
    textField "args" (·.args.isSome) Json.readArray fun d v => { d with args := some v },
    textField "serial" (·.serial.isSome) (fun _ => Json.readWord) fun d v =>
      { d with serial := some v }]
  finish d := d.finish.toOption

/-- Reads a record that is the whole of a text. Source: tracelog-types `TraceRecord`, by serde_json
`from_slice`. -/
def read (input : List UInt8) : Except Json.Fault Record :=
  Json.readWhole (Json.readStructure schema Json.maxDepth) input

end TraceJournal.Record
