import TraceJournal.Json.Value
import TraceJournal.Text.Utf8

/-!
# Parts of JSON text

Readers of literals, quoted texts and numbers over bytes. Each takes what it reads off the front
and answers the rest. A reader that runs out of bytes reports `endOfText`; one that meets a byte
that cannot stand where it stands reports `malformed`.

Library serde_json, the parts of its `Deserializer`.
-/

namespace TraceJournal.Json

/-- Why a text is no value of the wanted kind. -/
inductive Fault where
  /-- A byte stands where it cannot stand, or a value is out of every range. -/
  | malformed
  /-- The text ends too early. -/
  | endOfText
  /-- A well-formed value is not of the wanted kind. -/
  | mistyped
  deriving DecidableEq, Repr

/-- A reader takes something off the front of a text. -/
abbrev Reader (α : Type) := List UInt8 → Except Fault (α × List UInt8)

/-- The byte of an ASCII character. -/
abbrev code (c : Char) : UInt8 := c.toUInt8

/-- A blank between parts: space, tabulator, line feed or carriage return. -/
def isGap (b : UInt8) : Bool := b == 32 || b == 9 || b == 10 || b == 13

/-- The text without the blanks in front. -/
def skipGaps (input : List UInt8) : List UInt8 := input.dropWhile isGap

/-- A decimal digit. -/
def isDigit (b : UInt8) : Bool := 48 ≤ b && b ≤ 57

/-- The value of a decimal digit. -/
def digitValue (b : UInt8) : Nat := b.toNat - 48

/-- The given bytes. -/
def readLiteral : List UInt8 → List UInt8 → Except Fault (List UInt8)
  | [], input => .ok input
  | _ :: _, [] => .error .endOfText
  | b :: word, c :: rest => if b = c then readLiteral word rest else .error .malformed

/-! ## Quoted texts -/

/-- The value of a hexadecimal digit in either case. -/
def hexValue? (b : UInt8) : Option Nat :=
  if isDigit b then some (b.toNat - 48)
  else if 97 ≤ b ∧ b ≤ 102 then some (b.toNat - 87)
  else if 65 ≤ b ∧ b ≤ 70 then some (b.toNat - 55)
  else none

/-- Four hexadecimal digits. -/
def readHex : Reader Nat
  | a :: b :: c :: d :: rest =>
    match hexValue? a, hexValue? b, hexValue? c, hexValue? d with
    | some a, some b, some c, some d => .ok (((a * 16 + b) * 16 + c) * 16 + d, rest)
    | _, _, _, _ => .error .malformed
  | _ => .error .endOfText

/-- The UTF-8 bytes of a code point. -/
def codePointBytes (n : Nat) : List UInt8 := Text.toBytes (String.singleton (Char.ofNat n))

/-- The second half of a character outside the basic plane, after its first half. -/
def readTrail (lead : Nat) : Reader Nat := fun input => do
  let rest ← readLiteral [code '\\', code 'u'] input
  let (trail, rest) ← readHex rest
  if 0xDC00 ≤ trail ∧ trail ≤ 0xDFFF then
    .ok ((lead - 0xD800) * 1024 + (trail - 0xDC00) + 0x10000, rest)
  else .error .malformed

/-- The code point after `\u`: four digits, or eight in two halves. -/
def readCodePoint : Reader Nat := fun input => do
  let (n, rest) ← readHex input
  if 0xDC00 ≤ n ∧ n ≤ 0xDFFF then .error .malformed
  else if 0xD800 ≤ n ∧ n < 0xDC00 then readTrail n rest
  else .ok (n, rest)

/-- The byte that a single character after a backslash stands for. -/
def escapedByte? (b : UInt8) : Option UInt8 :=
  if b = code '"' ∨ b = code '\\' ∨ b = code '/' then some b
  else if b = code 'b' then some 8
  else if b = code 'f' then some 12
  else if b = code 'n' then some 10
  else if b = code 'r' then some 13
  else if b = code 't' then some 9
  else none

/-- The bytes that an escape stands for, read after the backslash. -/
def readEscape : Reader (List UInt8)
  | [] => .error .endOfText
  | b :: rest =>
    if b = code 'u' then do
      let (n, rest) ← readCodePoint rest
      .ok (codePointBytes n, rest)
    else
      match escapedByte? b with
      | some byte => .ok ([byte], rest)
      | none => .error .malformed

/-- The bytes of a quoted text up to its closing mark. Every round takes at least one byte, so
that the length of the text bounds the rounds. -/
def readQuotedBytes : Nat → Reader (List UInt8)
  | 0, _ => .error .endOfText
  | _ + 1, [] => .error .endOfText
  | rounds + 1, b :: rest =>
    if b = code '"' then .ok ([], rest)
    else if b = code '\\' then do
      let (bytes, rest) ← readEscape rest
      let (more, rest) ← readQuotedBytes rounds rest
      .ok (bytes ++ more, rest)
    else if b < 32 then .error .malformed
    else do
      let (more, rest) ← readQuotedBytes rounds rest
      .ok (b :: more, rest)

/-- A quoted text, read after its opening mark. -/
def readQuoted : Reader String := fun input => do
  let (bytes, rest) ← readQuotedBytes input.length input
  match Text.ofBytes? bytes with
  | some s => .ok (s, rest)
  | none => .error .malformed

/-! ## Numbers -/

/-- Appends the digits in front to a significand as long as it stays below `2 ^ 64`; answers it
and how many digits it took. -/
def takeDigits (significand : Nat) : List UInt8 → Nat × Nat × List UInt8
  | [] => (significand, 0, [])
  | b :: rest =>
    if isDigit b && significand * 10 + digitValue b < 0x10000000000000000 then
      let (significand, taken, rest) := takeDigits (significand * 10 + digitValue b) rest
      (significand, taken + 1, rest)
    else (significand, 0, b :: rest)

/-- A power of ten, if it is finite. -/
def powerOfTen? (n : Nat) : Option Binary64 := Binary64.ofDecimal? false 1 n

/-- `x · 10 ^ exponent` in one step, for an exponent within the powers of ten that a binary64
number can hold. -/
def scaleOnce? (x : Binary64) (exponent : Int) : Option Binary64 := do
  let power ← powerOfTen? exponent.natAbs
  if 0 ≤ exponent then x.mul? power else x.div? power

/-- `x · 10 ^ exponent`, rounded after every one of the steps that stay within the powers of ten a
binary64 number can hold; none when it becomes too large. -/
def scale? (x : Binary64) (exponent : Int) : Option Binary64 :=
  if -308 ≤ exponent ∧ exponent ≤ 308 then scaleOnce? x exponent
  else if x.isZero then some x
  else if 0 < exponent then none
  else (scaleOnce? x (-308)).bind (scale? · (exponent + 308))
termination_by (-exponent).toNat

/-- The number `±significand · 10 ^ exponent`. -/
def decimalNumber (negative : Bool) (significand : Nat) (exponent : Int) :
    Except Fault Number :=
  match (Binary64.ofRatio? false significand 1).bind (scale? · exponent) with
  | some x => .ok (.decimal (if negative then x.neg else x))
  | none => .error .malformed

/-- The exponent of a number, read after its mark, and the number it belongs to. -/
def readExponent (negative : Bool) (significand : Nat) (exponent : Int) : Reader Number :=
  fun input => do
    let (down, input) :=
      match input with
      | b :: rest =>
        if b = code '-' then (true, rest) else if b = code '+' then (false, rest)
        else (false, input)
      | [] => (false, [])
    let digits := input.takeWhile isDigit
    let rest := input.dropWhile isDigit
    if input.isEmpty then .error .endOfText
    if digits.isEmpty then .error .malformed
    let e := digits.foldl (fun n b => n * 10 + digitValue b) 0
    let number ←
      if 2147483647 < e then
        if significand ≠ 0 ∧ ¬down then .error .malformed else decimalNumber negative 0 0
      else decimalNumber negative significand (if down then exponent - e else exponent + e)
    .ok (number, rest)

/-- The value of an integer of a significand and a sign; one that has no place among the integers
of 64 bits, and the negative zero, is a binary64 number. -/
def wholeNumber (negative : Bool) (significand : Nat) : Except Fault Number :=
  if negative then
    if h : 0 < significand ∧ significand ≤ 0x8000000000000000 then
      .ok (.integer (-significand) (by omega) (by omega))
    else decimalNumber true significand 0
  else
    if h : significand < 0x10000000000000000 then .ok (.integer significand (by omega) (by omega))
    else decimalNumber false significand 0

/-- The part of a number after its whole digits, of which `dropped` did not fit. -/
def readNumberTail (negative : Bool) (significand dropped : Nat) : Reader Number
  | [] => do
    if dropped = 0 then .ok (← wholeNumber negative significand, [])
    else .ok (← decimalNumber negative significand dropped, [])
  | b :: rest =>
    if b = code '.' then do
      let (significand, taken, after) := takeDigits significand rest
      let places := rest.takeWhile isDigit
      if rest.isEmpty then .error .endOfText
      if places.isEmpty then .error .malformed
      let exponent : Int := (dropped : Int) - taken
      match after.dropWhile isDigit with
      | [] => .ok (← decimalNumber negative significand exponent, [])
      | c :: rest =>
        if c = code 'e' ∨ c = code 'E' then readExponent negative significand exponent rest
        else .ok (← decimalNumber negative significand exponent, c :: rest)
    else if b = code 'e' ∨ b = code 'E' then readExponent negative significand dropped rest
    else do
      if dropped = 0 then .ok (← wholeNumber negative significand, b :: rest)
      else .ok (← decimalNumber negative significand dropped, b :: rest)

/-- A number without its sign. No digit may follow a leading zero. -/
def readUnsigned (negative : Bool) : Reader Number
  | [] => .error .endOfText
  | b :: rest =>
    if b = code '0' then
      match rest with
      | c :: _ => if isDigit c then .error .malformed else readNumberTail negative 0 0 rest
      | [] => readNumberTail negative 0 0 []
    else if isDigit b then
      let (significand, _, after) := takeDigits 0 (b :: rest)
      readNumberTail negative significand (after.takeWhile isDigit).length
        (after.dropWhile isDigit)
    else .error .malformed

end TraceJournal.Json
