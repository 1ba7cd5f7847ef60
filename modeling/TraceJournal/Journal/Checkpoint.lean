import TraceJournal.Record.Basic

/-!
# Checkpoints

The first millisecond that a reader delivers. A checkpoint taken from the clock is the first
millisecond after the present one, and the clock is read again a few times so that traces stamped
later are not before it.

Library tracelog-log, module `checkpoint`; SPEC_FULL §4.5.
-/

namespace TraceJournal

/-- The time from which on records are delivered, a whole number of milliseconds. Source:
tracelog-log `Checkpoint`. -/
structure Checkpoint where
  time : Instant
  deriving DecidableEq

namespace Checkpoint

/-- The checkpoint at a time, cut to whole milliseconds. Source: tracelog-log `Checkpoint.at`. -/
def atTime (time : Instant) : Checkpoint := ⟨time.truncate⟩

instance : LE Checkpoint where le c d := c.time ≤ d.time
instance : LT Checkpoint where lt c d := c.time < d.time
instance : Ord Checkpoint where compare c d := compare c.time d.time

instance (c d : Checkpoint) : Decidable (c ≤ d) := inferInstanceAs (Decidable (c.time ≤ d.time))
instance (c d : Checkpoint) : Decidable (c < d) := inferInstanceAs (Decidable (c.time < d.time))

/-- The record is at or after the checkpoint. Source: tracelog-log `Checkpoint.admits`. -/
def admits (c : Checkpoint) (r : Record) : Bool := c.time ≤ r.time

/-- The written form, always with three places. Source: tracelog-log, the display form of
`Checkpoint`. -/
def display (c : Checkpoint) : String := c.time.millisText

/-- The form for diagnostics. Source: tracelog-log, the diagnostics of `Checkpoint`. -/
def debug (c : Checkpoint) : String := "Checkpoint(" ++ c.time.zuluText ++ ")"

/-- Decodes a checkpoint; what is finer than a millisecond is kept. Source: tracelog-log
`Checkpoint`, as serde derives it. -/
def ofJson (value : Json) : Except DecodeError Checkpoint := Checkpoint.mk <$> Decode.instant value

/-- How often the clock is read at most until it has reached a checkpoint. Source: tracelog-log
`MAX_ADVANCE_RETRIES`. -/
def maxClockReads : Nat := 5

/-- How many of `rounds` readings of a clock, `next` being the number of the next one, are made
until one has reached the target. Source: tracelog-log `advance_past`, its loop. -/
def clockReads (clock : Nat → Instant) (target : Instant) : (rounds next : Nat) → Nat
  | 0, _ => 0
  | rounds + 1, next =>
    if target ≤ clock next then 1 else clockReads clock target rounds (next + 1) + 1

/-- The checkpoint at the first millisecond after an observed time; none if that is out of range.
Source: tracelog-log `advance_past`, its `target`. -/
def after? (observed : Instant) : Option Checkpoint := observed.nextMillisecond?.map atTime

/-- The wording of the failure when no millisecond follows. -/
def overflowText : String := "`DateTime + TimeDelta` overflowed"

/-- The checkpoint at the first millisecond after an observed time, for readers, which go on in any
case. If no millisecond follows it is the observed one; there `advance_past` of tracelog-log breaks
off with `overflowText`, and `after?` and `advancePast?` answer nothing. -/
def after (observed : Instant) : Checkpoint := (after? observed).getD (atTime observed)

/-- The checkpoint at the first millisecond after an observed time, and the number of clock readings
made while waiting for it. Source: tracelog-log `advance_past`. -/
def advancePast? (observed : Instant) (clock : Nat → Instant) : Option (Checkpoint × Nat) :=
  (after? observed).map fun target => (target, clockReads clock target.time maxClockReads 0)

end Checkpoint

end TraceJournal
