/-!
# Hexadecimal digits

Bytes as pairs of digits in lower case. Either case is read back.
-/

namespace TraceJournal.Bytes

/-- The digits of bytes, two for each. -/
def toHex (bytes : List UInt8) : List Char :=
  bytes.flatMap fun b => [Nat.digitChar (b.toNat / 16), Nat.digitChar (b.toNat % 16)]

/-- The value of a digit. -/
def digitValue? (c : Char) : Option Nat :=
  if '0' ≤ c ∧ c ≤ '9' then some (c.toNat - 48)
  else if 'a' ≤ c ∧ c ≤ 'f' then some (c.toNat - 87)
  else if 'A' ≤ c ∧ c ≤ 'F' then some (c.toNat - 55)
  else none

/-- The value of a pair of digits; a plus sign can stand in the place of a zero in front. -/
def pairValue? (high low : Char) : Option Nat :=
  if high = '+' then digitValue? low
  else do return (← digitValue? high) * 16 + (← digitValue? low)

/-- The bytes of pairs of digits. What is left at the end, if it is a single byte, is left out. -/
def ofHex? : List Char → Option (List UInt8)
  | high :: low :: rest => do return .ofNat (← pairValue? high low) :: (← ofHex? rest)
  | [c] => if c.utf8Size = 1 then some [] else none
  | [] => some []

end TraceJournal.Bytes
