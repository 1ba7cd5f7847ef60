import TraceJournal.Time.Calendar
import TraceJournal.Time.Instant

/-!
# Date and time of day

An instant as a clock on the wall shows it in UTC, with second 60 for a leap second, and the
instant that a clock set to some offset from UTC shows.

Library chrono, `NaiveDateTime`.
-/

namespace TraceJournal.Time

/-- A calendar date and the time of day. Second 60 is a leap second. -/
structure Civil where
  date : Date
  hour : Nat
  minute : Nat
  second : Nat
  nanos : Nat
  deriving DecidableEq, Repr

namespace Civil

/-- The date and time of day of an instant in UTC. -/
def ofInstant (t : Instant) : Civil :=
  let ofDay := (t.seconds % 86400).toNat
  { date := Date.ofDays (t.seconds / 86400)
    hour := ofDay / 3600
    minute := ofDay / 60 % 60
    second := ofDay % 60 + (if t.nanos < 1000000000 then 0 else 1)
    nanos := t.nanos % 1000000000 }

/-- The instant that a clock running `offset` seconds ahead of UTC shows, if it is in range. -/
def toInstant? (c : Civil) (offset : Int) : Option Instant :=
  let leap := c.second == 60
  let ofDay : Int := c.hour * 3600 + c.minute * 60 + (if leap then 59 else c.second : Nat)
  Instant.ofParts? (c.date.toDays * 86400 + ofDay - offset)
    (c.nanos + if leap then 1000000000 else 0)

end Civil

end TraceJournal.Time
