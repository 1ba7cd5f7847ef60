import TraceJournal.Text.Blank
import TraceJournal.Text.Digits
import TraceJournal.Time.Civil

/-!
# Reading instants

Two readers of dates with a time of day and an offset from UTC:

* `Instant.read` takes what stored traces may hold: blanks around every part, one or two digits
  for each of month, day, hour, minute and second, a signed year, a space or either case of `T`
  before the time, any number of places in the fraction (more than nine are dropped), and as offset
  `Z`, `UTC` or a signed `hh:mm`;
* `Instant.readStrict` takes RFC 3339 only: every part at its full width, with `T`, `t` or one
  space in the middle.

A fault is reported where it is met, from left to right; whether the date exists is settled once
all parts are read by the first reader, and right after the date by the second.

Library chrono, `DateTime.from_str` and `DateTime.parse_from_rfc3339`.
-/

namespace TraceJournal.Time

open TraceJournal.Text

/-- Why a text is no instant. -/
inductive ReadError where
  /-- A part has a value that it cannot have. -/
  | outOfRange
  /-- The offset leads out of the range of instants. -/
  | noSuchTime
  /-- A character stands where it cannot stand. -/
  | malformed
  /-- The text ends too early. -/
  | endsEarly
  /-- The text goes on after the offset. -/
  | trailing
  deriving DecidableEq, Repr

/-- The wording of a read error. -/
def ReadError.message : ReadError → String
  | .outOfRange => "input is out of range"
  | .noSuchTime => "no possible date and time matching input"
  | .malformed => "input contains invalid characters"
  | .endsEarly => "premature end of input"
  | .trailing => "trailing input"

/-- One character that has to come next. -/
def readMark (mark : Char) : List Char → Except ReadError (List Char)
  | [] => .error .endsEarly
  | c :: rest => if c = mark then .ok rest else .error .malformed

/-- A run of one to `width` digits. -/
def readNumber (width : Nat) (text : List Char) : Except ReadError (Nat × List Char) :=
  let digits := (text.take width).takeWhile Char.isDigit
  if text.isEmpty then .error .endsEarly
  else if digits.isEmpty then .error .malformed
  else .ok (decimalValue digits, text.drop digits.length)

/-- A run of one to `width` digits whose value lies between two bounds. -/
def readBounded (width low high : Nat) (text : List Char) :
    Except ReadError (Nat × List Char) := do
  let (n, rest) ← readNumber width text
  if low ≤ n ∧ n ≤ high then .ok (n, rest) else .error .outOfRange

/-- The digits after the point of a fraction, as nanoseconds. -/
def readNanos (text : List Char) : Except ReadError (Nat × List Char) := do
  let (n, rest) ← readNumber 9 text
  let places := text.length - rest.length
  .ok (n * Nat.pow 10 (9 - places), rest.dropWhile Char.isDigit)

/-- The fraction of a second, if there is one. -/
def readFraction (text : List Char) : Except ReadError (Nat × List Char) :=
  match text with
  | '.' :: rest => readNanos rest
  | _ => .ok (0, text)

/-- A year: at most four digits, or a sign and any number of them. -/
def readYear (text : List Char) : Except ReadError (Int × List Char) :=
  let checked (sign : Int) (rest : List Char) : Except ReadError (Int × List Char) := do
    let (n, rest) ← readNumber rest.length rest
    let year := sign * n
    if -2147483648 ≤ year ∧ year ≤ 2147483647 then .ok (year, rest) else .error .outOfRange
  match text with
  | '-' :: rest => checked (-1) rest
  | '+' :: rest => checked 1 rest
  | _ => do
    let (n, rest) ← readNumber 4 text
    .ok ((n : Int), rest)

/-- Two digits, each within its own bound; `late` is the fault of a first digit that is a digit
but too large. -/
def readPair (tens : Nat) (late : ReadError) : List Char → Except ReadError (Nat × List Char)
  | [] => .error .endsEarly
  | [c] => .error (if c.toNat < 128 then .endsEarly else .malformed)
  | c :: d :: rest =>
    if c.isDigit ∧ d.isDigit then
      if decimalValue [c] ≤ tens then .ok (decimalValue [c, d], rest) else .error late
    else .error .malformed

/-- The offset from UTC in seconds: `Z`, or a sign, two digits for the hours, whatever
`separator` takes, and two digits for the minutes. -/
def readOffset (separator : List Char → Except ReadError (List Char)) (text : List Char) :
    Except ReadError (Int × List Char) :=
  let signed (sign : Int) (rest : List Char) : Except ReadError (Int × List Char) := do
    let (hours, rest) ← readPair 9 .outOfRange rest
    let rest ← separator rest
    let (minutes, rest) ← readPair 5 .outOfRange rest
    .ok (sign * (hours * 3600 + minutes * 60 : Nat), rest)
  match text with
  | [] => .error .endsEarly
  | 'Z' :: rest => .ok (0, rest)
  | 'z' :: rest => .ok (0, rest)
  | '+' :: rest => signed 1 rest
  | '-' :: rest => signed (-1) rest
  | '\u2212' :: rest => signed (-1) rest
  | _ => .error .malformed

/-- The offset from UTC as stored traces may have it: also `UTC` in any case, and any number of
colons and blanks between hours and minutes. -/
def readLooseOffset (text : List Char) : Except ReadError (Int × List Char) :=
  match text with
  | c :: d :: e :: rest =>
    if [c, d, e].map Char.toUpper = ['U', 'T', 'C'] then .ok (0, rest)
    else readOffset (fun cs => .ok (cs.dropWhile fun c => c = ':' || isBlank c)) text
  | _ => readOffset (fun cs => .ok (cs.dropWhile fun c => c = ':' || isBlank c)) text

/-- The mark between date and time. -/
def readMiddle : List Char → Except ReadError (List Char)
  | [] => .error .endsEarly
  | c :: rest => if c = 'T' ∨ c = 't' ∨ c = ' ' then .ok rest else .error .malformed

/-- The instant of a date, a time of day and an offset, all read. -/
def settle (c : Civil) (offset : Int) : Except ReadError Instant :=
  if ¬c.date.isValid ∨ c.date.year < -262143 ∨ 262142 < c.date.year then .error .outOfRange
  else if offset ≤ -86400 ∨ 86400 ≤ offset then .error .outOfRange
  else
    match c.toInstant? offset with
    | some t => .ok t
    | none => .error .noSuchTime

end TraceJournal.Time

namespace TraceJournal.Instant

open TraceJournal.Text
open TraceJournal.Time

/-- Reads an instant in any of the forms that stored traces may have. -/
def readChars (text : List Char) : Except ReadError Instant := do
  let (year, rest) ← readYear (dropBlanks text)
  let rest ← readMark '-' (dropBlanks rest)
  let (month, rest) ← readBounded 2 1 12 (dropBlanks rest)
  let rest ← readMark '-' (dropBlanks rest)
  let (day, rest) ← readBounded 2 1 31 (dropBlanks rest)
  let rest ← readMiddle rest
  let (hour, rest) ← readBounded 2 0 23 (dropBlanks rest)
  let rest ← readMark ':' (dropBlanks rest)
  let (minute, rest) ← readBounded 2 0 59 (dropBlanks rest)
  let rest ← readMark ':' (dropBlanks rest)
  let (second, rest) ← readBounded 2 0 60 (dropBlanks rest)
  let (nanos, rest) ← readFraction rest
  let (offset, rest) ← readLooseOffset (dropBlanks rest)
  if (dropBlanks rest).isEmpty then
    settle ⟨⟨year, month, day⟩, hour, minute, second, nanos⟩ offset
  else .error .trailing

/-- Reads an instant in any of the forms that stored traces may have. Source: chrono
`DateTime.from_str`. -/
def read (text : String) : Except ReadError Instant := readChars text.toList

/-- `width` digits, neither more nor fewer. -/
def readFixed (width : Nat) (text : List Char) : Except ReadError (Nat × List Char) :=
  let digits := text.take width
  if digits.length = width ∧ digits.all Char.isDigit then
    .ok (decimalValue digits, text.drop width)
  else .error .malformed

/-- Reads an instant in the form of RFC 3339. Source: chrono `DateTime.parse_from_rfc3339`. -/
def readStrict (text : String) : Except ReadError Instant := do
  if text.utf8ByteSize < 19 then .error .endsEarly
  let (year, rest) ← readFixed 4 text.toList
  let rest ← readMark '-' rest
  let (month, rest) ← readFixed 2 rest
  let rest ← readMark '-' rest
  let (day, rest) ← readFixed 2 rest
  if ¬(Date.mk year month day).isValid then .error .outOfRange
  let rest ← readMiddle rest
  let (hour, rest) ← readFixed 2 rest
  let rest ← readMark ':' rest
  let (minute, rest) ← readFixed 2 rest
  let rest ← readMark ':' rest
  let (second, rest) ← readFixed 2 rest
  let (nanos, rest) ← readFraction rest
  if 23 < hour ∨ 59 < minute ∨ 60 < second then .error .outOfRange
  let (offset, rest) ← readOffset (readMark ':') rest
  if rest.isEmpty then settle ⟨⟨year, month, day⟩, hour, minute, second, nanos⟩ offset
  else .error .trailing

end TraceJournal.Instant
