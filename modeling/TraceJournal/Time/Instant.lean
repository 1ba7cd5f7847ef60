/-!
# Instants

A point of time is a whole number of seconds since 1970-01-01T00:00:00Z and a number of
nanoseconds. A leap second has no number of its own: it shares the number of the second before
it, the last one of a minute, and its nanoseconds run on from 1 000 000 000. Instants are ordered
by seconds and then by nanoseconds.

Traces are stamped with whole milliseconds: `truncate` drops what is finer.

Library chrono, `DateTime`, as tracelog-types uses it in `TraceTime`.
-/

namespace TraceJournal

/-- A point of time from the year -262143 to the year 262142. Source: tracelog-types `TraceTime`. -/
structure Instant where
  /-- Whole seconds since the start of 1970. -/
  seconds : Int
  /-- Nanoseconds into the second; from 1 000 000 000 on, into the leap second after it. -/
  nanos : Nat
  nanos_lt : nanos < 2000000000
  leap_second : 1000000000 ≤ nanos → seconds % 60 = 59
  earliest_le : -8334601228800 ≤ seconds
  le_latest : seconds ≤ 8210266876799
  deriving DecidableEq

namespace Instant

/-- The instant with the given seconds and nanoseconds, if there is one. -/
def ofParts? (seconds : Int) (nanos : Nat) : Option Instant :=
  if h : nanos < 2000000000 ∧ (1000000000 ≤ nanos → seconds % 60 = 59) ∧
      -8334601228800 ≤ seconds ∧ seconds ≤ 8210266876799 then
    some ⟨seconds, nanos, h.1, h.2.1, h.2.2.1, h.2.2.2⟩
  else none

/-- The instant a number of milliseconds after the start of 1970, if it is in range. Source:
tracelog-types `time_from_millis`. -/
def ofMillis? (millis : Int) : Option Instant :=
  ofParts? (millis / 1000) ((millis % 1000).toNat * 1000000)

/-- The number of whole milliseconds since the start of 1970. -/
def millis (t : Instant) : Int := t.seconds * 1000 + (t.nanos / 1000000 : Nat)

/-- The place of an instant in the order of all instants: every second, with the leap second that
may follow it, takes two thousand million places. -/
def rank (t : Instant) : Int := t.seconds * 2000000000 + t.nanos

instance : LE Instant where le t u := t.rank ≤ u.rank
instance : LT Instant where lt t u := t.rank < u.rank
instance : Ord Instant where compare t u := compare t.rank u.rank

instance (t u : Instant) : Decidable (t ≤ u) := inferInstanceAs (Decidable (t.rank ≤ u.rank))
instance (t u : Instant) : Decidable (t < u) := inferInstanceAs (Decidable (t.rank < u.rank))

/-- An instant is at or before another one exactly when its rank is. -/
theorem le_iff_rank_le {t u : Instant} : t ≤ u ↔ t.rank ≤ u.rank := Iff.rfl

/-- An instant is before another one exactly when its rank is. -/
theorem lt_iff_rank_lt {t u : Instant} : t < u ↔ t.rank < u.rank := Iff.rfl

/-- Instants with the same seconds and nanoseconds are the same. -/
@[ext]
theorem ext {t u : Instant} (hs : t.seconds = u.seconds) (hn : t.nanos = u.nanos) : t = u := by
  cases t
  cases u
  simp only at hs hn
  subst hs
  subst hn
  rfl

/-- The rank tells instants apart. -/
theorem rank_inj {t u : Instant} : t.rank = u.rank ↔ t = u := by
  refine ⟨fun h => ?_, fun h => congrArg rank h⟩
  have ht := t.nanos_lt
  have hu := u.nanos_lt
  simp only [rank] at h
  exact ext (by omega) (by omega)

/-- Instants are ordered by seconds first and by nanoseconds within one second. -/
theorem le_iff {t u : Instant} :
    t ≤ u ↔ t.seconds < u.seconds ∨ (t.seconds = u.seconds ∧ t.nanos ≤ u.nanos) := by
  have ht := t.nanos_lt
  have hu := u.nanos_lt
  simp only [le_iff_rank_le, rank]
  omega

/-- The instant without what is finer than a millisecond. A leap second stays one. Source: chrono
`trunc_subsecs`, for three places. -/
def truncate (t : Instant) : Instant where
  seconds := t.seconds
  nanos := t.nanos - t.nanos % 1000000
  nanos_lt := by have := t.nanos_lt; omega
  leap_second h := t.leap_second (by omega)
  earliest_le := t.earliest_le
  le_latest := t.le_latest

/-- The number of nanoseconds at which the second of an instant ends, counting a leap second as
part of the second whose number it shares. -/
def secondEnd (t : Instant) : Nat := if t.nanos < 1000000000 then 1000000000 else 2000000000

/-- The instant one millisecond later, if it is in range. A step out of a leap second enters the
next minute. Source: the sum in tracelog-log `advance_past`. -/
def nextMillisecond? (t : Instant) : Option Instant :=
  if t.nanos + 1000000 < t.secondEnd then ofParts? t.seconds (t.nanos + 1000000)
  else ofParts? (t.seconds + 1) (t.nanos + 1000000 - t.secondEnd)

end Instant

end TraceJournal
