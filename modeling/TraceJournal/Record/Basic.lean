import TraceJournal.Record.Position

/-!
# Trace records

One captured event: when it happened, who reported it through which interface, the method and its
arguments. The serial number is zero until the record is stored.

Library tracelog-types, module `record`; SPEC_FULL §3.
-/

namespace TraceJournal

/-- A captured event. Source: tracelog-types `TraceRecord`. -/
structure Record where
  time : Instant
  owner : String
  interface : String
  method : String
  args : List Json
  serial : UInt64
  deriving DecidableEq

namespace Record

/-- The owner of the records that readers store to keep a cursor alive; no consumer sees them.
Source: tracelog-types `SENTINEL_OWNER`. -/
def sentinelOwner : String := "$tracelog.sentinel"

/-- The method of the records that readers store. Source: tracelog-types `SENTINEL_METHOD`. -/
def sentinelMethod : String := "anchor"

/-- A record of the given time, cut to whole milliseconds, that is not stored yet. Source:
tracelog-types `TraceRecord.at`. -/
def atTime (time : Instant) (owner interface method : String) (args : List Json) : Record :=
  { time := time.truncate, owner, interface, method, args, serial := 0 }

/-- The record that a reader stores at a time to keep a cursor alive. Source: tracelog-types
`TraceRecord.sentinel`. -/
def sentinel (time : Instant) : Record :=
  atTime time sentinelOwner sentinelOwner sentinelMethod []

/-- The record was stored by a reader. Source: tracelog-types `TraceRecord.is_sentinel`. -/
def isSentinel (r : Record) : Bool := r.owner == sentinelOwner

/-- The record with another serial number. Source: tracelog-types `TraceRecord.with_serial`. -/
def withSerial (r : Record) (serial : UInt64) : Record := { r with serial }

/-- The place of the record in the order of stored traces. Source: tracelog-types
`TraceRecord.position`. -/
def position (r : Record) : Position := ⟨r.time, r.serial⟩

/-- The line that shows a record, as in `2024-05-01T12:00:00.000Z shop Orders.placed(1, "x")`.
Source: tracelog-types, the display form of `TraceRecord`. -/
def display (r : Record) : String :=
  r.time.millisText ++ " " ++ r.owner ++ " " ++ r.interface ++ "." ++ r.method ++ "(" ++
    ", ".intercalate (r.args.map Json.render) ++ ")"

/-- The fields of a record in the order in which they are written. -/
def fields (r : Record) : List (String × Json) := [
  ("time", .text r.time.zuluText),
  ("owner", .text r.owner),
  ("interface", .text r.interface),
  ("method", .text r.method),
  ("args", .array r.args),
  ("serial", .ofWord r.serial)]

/-- The record as a value, with sorted fields. Source: tracelog-types `TraceRecord`, as serde
derives it. -/
def toJson (r : Record) : Json := .ofFields r.fields

/-- The record as the text of an object, with its fields in the order of the structure. -/
def render (r : Record) : String := (Json.object r.fields).render

end Record

end TraceJournal
