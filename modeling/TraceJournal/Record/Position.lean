import TraceJournal.Decode
import TraceJournal.Time.Printer

/-!
# Positions

The place of a stored trace in the order of all traces: its time and, among those of one
millisecond, its serial number.

Library tracelog-types, module `record`; SPEC_FULL §3.
-/

namespace TraceJournal

/-- A place in the order of traces. Source: tracelog-types `Position`. -/
structure Position where
  time : Instant
  serial : UInt64
  deriving DecidableEq

namespace Position

/-- Positions are ordered by time and then by serial number. -/
instance : LE Position where
  le p q := p.time < q.time ∨ (p.time = q.time ∧ p.serial ≤ q.serial)

/-- Positions are ordered by time and then by serial number. -/
instance : LT Position where
  lt p q := p.time < q.time ∨ (p.time = q.time ∧ p.serial < q.serial)

instance (p q : Position) : Decidable (p ≤ q) :=
  inferInstanceAs (Decidable (p.time < q.time ∨ (p.time = q.time ∧ p.serial ≤ q.serial)))

instance (p q : Position) : Decidable (p < q) :=
  inferInstanceAs (Decidable (p.time < q.time ∨ (p.time = q.time ∧ p.serial < q.serial)))

/-- Compares the times, and the serial numbers of equal times. -/
instance : Ord Position where
  compare p q := (compare p.time q.time).then (compare p.serial q.serial)

/-- The written form, as in `2024-05-01T12:00:00+00:00#3`. Source: tracelog-types, the display form
of `Position`. -/
def display (p : Position) : String :=
  p.time.offsetText ++ "#" ++ String.ofList (Text.decimal p.serial.toNat)

/-- The form for diagnostics, as in `Position(250ms#3)`. Source: tracelog-types, the diagnostics of
`Position`. -/
def debug (p : Position) : String :=
  "Position(" ++ String.ofList (Text.signedDecimal p.time.millis) ++ "ms#" ++
    String.ofList (Text.decimal p.serial.toNat) ++ ")"

/-- The position as a value. Source: tracelog-types `Position`, as serde derives it. -/
def toJson (p : Position) : Json :=
  .ofFields [("time", .text p.time.zuluText), ("serial", .ofWord p.serial)]

/-- The fields of a position that were met so far. -/
structure Draft where
  time : Option Instant
  serial : Option UInt64

/-- The fields of a position. -/
def slots : List (Decode.Slot Json Draft) := [
  ⟨"time", fun d v => do return { d with time := some (← Decode.instant v) }⟩,
  ⟨"serial", fun d v => do return { d with serial := some (← Decode.word v) }⟩]

/-- The position of a draft. -/
def Draft.finish (d : Draft) : Except String Position :=
  match d.time, d.serial with
  | none, _ => .error "time"
  | _, none => .error "serial"
  | some time, some serial => .ok ⟨time, serial⟩

/-- Decodes a position. Source: tracelog-types `Position`, as serde derives it. -/
def ofJson (value : Json) : Except DecodeError Position :=
  Decode.structureOf "struct Position" slots ⟨none, none⟩ Draft.finish value

end Position

end TraceJournal
