import TraceJournal.Text.Digits
import TraceJournal.Time.Civil

/-!
# Written forms of instants

Four forms share the date and the time of day, in UTC:

* `zuluText`: `2024-05-01T12:00:00.250Z`, the form of stored traces;
* `offsetText`: `2024-05-01T12:00:00.250+00:00`, the form inside positions;
* `spacedText`: `2024-05-01 12:00:00.250 UTC`, the form inside messages;
* `millisText`: `2024-05-01T12:00:00.250Z` with exactly three places, the form of printed traces.

The fraction of the first three is left out when it is zero and has three, six or nine places
otherwise. A year from 0 to 9999 has four digits; any other has a sign and at least four.

Library chrono, the written forms of `DateTime`.
-/

namespace TraceJournal.Time

open TraceJournal.Text

/-- A year as it is written in dates. -/
def yearText (year : Int) : List Char :=
  if 0 ≤ year ∧ year ≤ 9999 then paddedDecimal 4 year.toNat
  else (if year < 0 then '-' else '+') :: paddedDecimal 4 year.natAbs

/-- A date: year, month and day. -/
def Date.text (d : Date) : List Char :=
  yearText d.year ++ '-' :: paddedDecimal 2 d.month ++ '-' :: paddedDecimal 2 d.day

namespace Civil

/-- The time of day to the second. -/
def clockText (c : Civil) : List Char :=
  paddedDecimal 2 c.hour ++ ':' :: paddedDecimal 2 c.minute ++ ':' :: paddedDecimal 2 c.second

/-- The fraction of the second with the fewest of zero, three, six and nine places that lose
nothing. -/
def fractionText (c : Civil) : List Char :=
  if c.nanos = 0 then []
  else if c.nanos % 1000000 = 0 then '.' :: paddedDecimal 3 (c.nanos / 1000000)
  else if c.nanos % 1000 = 0 then '.' :: paddedDecimal 6 (c.nanos / 1000)
  else '.' :: paddedDecimal 9 c.nanos

/-- Date and time of day, with the given character between them. -/
def dateTimeText (separator : Char) (c : Civil) : List Char :=
  c.date.text ++ separator :: c.clockText ++ c.fractionText

/-- Date and time of day to the millisecond; what is finer is cut off. -/
def millisText (c : Civil) : List Char :=
  c.date.text ++ 'T' :: c.clockText ++ '.' :: paddedDecimal 3 (c.nanos / 1000000) ++ ['Z']

end Civil

end TraceJournal.Time

namespace TraceJournal.Instant

open TraceJournal.Time

/-- The characters of the form with `T` and `Z`. -/
def zuluChars (t : Instant) : List Char := (Civil.ofInstant t).dateTimeText 'T' ++ ['Z']

/-- The form of stored traces, as in `2024-05-01T12:00:00.250Z`. Source: chrono `DateTime`, as serde
writes it. -/
def zuluText (t : Instant) : String := String.ofList t.zuluChars

/-- The form inside positions, as in `2024-05-01T12:00:00.250+00:00`. -/
def offsetText (t : Instant) : String :=
  String.ofList ((Civil.ofInstant t).dateTimeText 'T') ++ "+00:00"

/-- The form inside messages, as in `2024-05-01 12:00:00.250 UTC`. Source: chrono, the display form
of `DateTime`. -/
def spacedText (t : Instant) : String :=
  String.ofList ((Civil.ofInstant t).dateTimeText ' ') ++ " UTC"

/-- The form of printed traces, always with three places. -/
def millisText (t : Instant) : String := String.ofList (Civil.ofInstant t).millisText

end TraceJournal.Instant
