import TraceJournal.Number.Binary64
import TraceJournal.Text.Digits

/-!
# Reading numbers

Integers in a range, and the nearest binary64 number to a decimal written with an optional sign,
point and exponent. A decimal that is too large, and the texts `inf`, `infinity` and `nan` in any
case, stand for values that are not finite.

Library toml, the numbers of its reader.
-/

namespace TraceJournal.Number

open TraceJournal.Text

/-- A sign in front of a text; true for minus. -/
def takeSign : List Char → Bool × List Char
  | '-' :: rest => (true, rest)
  | '+' :: rest => (false, rest)
  | input => (false, input)

/-- Reads an integer from `least` on and below `bound`: digits, with a sign or without. -/
def readInteger? (least bound : Int) (s : String) : Option Int :=
  let (negative, digits) := takeSign s.toList
  let value : Int := if negative then -decimalValue digits else decimalValue digits
  if digits.isEmpty ∨ ¬digits.all Char.isDigit ∨ value < least ∨ bound ≤ value then none
  else some value

/-- The exponent of a decimal: zero if there is none, nothing if it is malformed. -/
def readExponent? : List Char → Option Int
  | [] => some 0
  | c :: rest =>
    if c = 'e' ∨ c = 'E' then
      let (negative, digits) := takeSign rest
      if digits.isEmpty ∨ ¬digits.all Char.isDigit then none
      else some (if negative then -(decimalValue digits : Int) else decimalValue digits)
    else none

/-- `±digits · 10 ^ exponent` as the nearest binary64 number, where an exponent far outside of
what such a number can hold is not worked out. -/
def nearest? (negative : Bool) (digits : Nat) (exponent : Int) : Option Binary64 :=
  let size : Int := (decimal digits).length + exponent
  if digits = 0 ∨ size < -400 then Binary64.ofMagnitude? negative 0
  else if 400 < size then none
  else Binary64.ofDecimal? negative digits exponent

/-- Reads a number: nothing if the text is none, and `some none` if the number is not finite. -/
def read? (s : String) : Option (Option Binary64) :=
  let (negative, unsigned) := takeSign s.toList
  if ["inf", "infinity", "nan"].contains (String.ofList (unsigned.map Char.toLower)) then some none
  else
    let whole := unsigned.takeWhile Char.isDigit
    let rest := unsigned.dropWhile Char.isDigit
    let (places, rest) :=
      match rest with
      | '.' :: rest => (rest.takeWhile Char.isDigit, rest.dropWhile Char.isDigit)
      | _ => ([], rest)
    if whole.isEmpty ∧ places.isEmpty then none
    else
      (readExponent? rest).map fun exponent =>
        nearest? negative (decimalValue (whole ++ places)) (exponent - places.length)

end TraceJournal.Number
