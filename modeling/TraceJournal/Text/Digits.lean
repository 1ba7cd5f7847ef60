/-!
# Decimal digits

Natural numbers and integers as decimal digits, with an optional minimum width. Reading digits
back goes through `Nat.ofDigitChars`.
-/

namespace TraceJournal.Text

/-- The decimal digits of a number, without leading zeros. -/
def decimal (n : Nat) : List Char := Nat.toDigits 10 n

/-- The decimal digits of a number, filled up with leading zeros to the given width. -/
def paddedDecimal (width n : Nat) : List Char :=
  List.replicate (width - (decimal n).length) '0' ++ decimal n

/-- The decimal digits of an integer, with a minus sign for the negative ones. -/
def signedDecimal (n : Int) : List Char :=
  if n < 0 then '-' :: decimal n.natAbs else decimal n.natAbs

/-- The value of a run of decimal digits. -/
def decimalValue (digits : List Char) : Nat := Nat.ofDigitChars 10 digits 0

/-- A run of digits reads back as the number it was written for. -/
theorem decimalValue_decimal (n : Nat) : decimalValue (decimal n) = n := by
  simp [decimalValue, decimal]

/-- Leading zeros do not change the value. -/
theorem decimalValue_paddedDecimal (width n : Nat) :
    decimalValue (paddedDecimal width n) = n := by
  simp [decimalValue, paddedDecimal, decimal, Nat.ofDigitChars_append]

/-- A padded number has at least the requested width. -/
theorem le_length_paddedDecimal (width n : Nat) : width ≤ (paddedDecimal width n).length := by
  simp only [paddedDecimal, List.length_append, List.length_replicate]
  omega

end TraceJournal.Text
