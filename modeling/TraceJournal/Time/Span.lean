import TraceJournal.Text.Digits

/-!
# Spans of time

Spans of whole milliseconds as diagnostics show them: in seconds from one second on, and without
zeros at the end of the fraction.
-/

namespace TraceJournal.Time

/-- A fraction of a second with its point, without zeros at its end; nothing for no fraction. -/
def fractionText (millis : Nat) : List Char :=
  let digits := (Text.paddedDecimal 3 millis).reverse.dropWhile (· == '0')
  if digits.isEmpty then [] else '.' :: digits.reverse

/-- A span of milliseconds. -/
def spanText (millis : Nat) : String :=
  if millis = 0 then "0ns"
  else if millis < 1000 then String.ofList (Text.decimal millis) ++ "ms"
  else String.ofList (Text.decimal (millis / 1000) ++ fractionText (millis % 1000)) ++ "s"

end TraceJournal.Time
