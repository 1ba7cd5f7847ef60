/-!
# Binary floating point

The finite numbers of the IEEE 754 format binary64, kept as their 64 bits. Every operation works
on the exact value `±m · 2^q` in integers and rounds once, to the nearest number and to the one
with an even significand in the middle, so no law about them depends on a machine's arithmetic.

Floating-point numbers of IEEE 754, as serde_json reads and writes them.
-/

namespace TraceJournal

/-- A finite binary64 number. -/
structure Binary64 where
  bits : UInt64
  finite : bits.toNat / 0x10000000000000 % 2048 ≠ 2047
  deriving DecidableEq

namespace Binary64

/-- The number whose bits are a sign and a magnitude, if it is finite. -/
def ofMagnitude? (negative : Bool) (magnitude : Nat) : Option Binary64 :=
  let bits := UInt64.ofNat (magnitude + if negative then 0x8000000000000000 else 0)
  if h : bits.toNat / 0x10000000000000 % 2048 ≠ 2047 ∧ magnitude < 2047 * 0x10000000000000 then
    some ⟨bits, h.1⟩
  else none

/-- The zero with a positive sign. -/
def zero : Binary64 := ⟨0, by decide⟩

instance : Inhabited Binary64 := ⟨zero⟩

/-- The sign bit is set. -/
def isNegative (x : Binary64) : Bool := 0x8000000000000000 ≤ x.bits.toNat

/-- The bits without the sign; their order is the order of absolute values. -/
def magnitude (x : Binary64) : Nat := x.bits.toNat % 0x8000000000000000

/-- The number is one of the two zeros. -/
def isZero (x : Binary64) : Bool := x.magnitude == 0

/-- The significand `m` of the absolute value `m · 2^q`. -/
def significand (x : Binary64) : Nat :=
  let fraction := x.magnitude % 0x10000000000000
  if x.magnitude < 0x10000000000000 then fraction else fraction + 0x10000000000000

/-- The exponent `q` of the absolute value `m · 2^q`. -/
def exponent (x : Binary64) : Int :=
  if x.magnitude < 0x10000000000000 then -1074
  else ((x.magnitude / 0x10000000000000 : Nat) : Int) - 1075

/-- The same number with the other sign. -/
def neg (x : Binary64) : Binary64 := (ofMagnitude? (!x.isNegative) x.magnitude).getD x

/-- A quotient rounded to the nearest integer, and to the even one in the middle. -/
def roundHalfEven (num den : Nat) : Nat :=
  let floor := num / den
  let twice := 2 * (num % den)
  if twice < den then floor
  else if den < twice then floor + 1
  else floor + floor % 2

/-- The largest `e` with `2^e ≤ num / den`, for positive numbers. -/
def floorLog2 (num den : Nat) : Int :=
  let estimate : Int := (num.log2 : Int) - (den.log2 : Int)
  if den * Nat.pow 2 estimate.toNat ≤ num * Nat.pow 2 (-estimate).toNat then estimate
  else estimate - 1

/-- The number nearest to `±num / den`; none when it is too large to be finite. -/
def ofRatio? (negative : Bool) (num den : Nat) : Option Binary64 :=
  if num = 0 then ofMagnitude? negative 0
  else
    let q := max (-1074) (floorLog2 num den - 52)
    let m := roundHalfEven (num * Nat.pow 2 (-q).toNat) (den * Nat.pow 2 q.toNat)
    ofMagnitude? negative ((q + 1074).toNat * 0x10000000000000 + m)

/-- The number nearest to `±digits · 10^exponent`; none when it is too large to be finite. -/
def ofDecimal? (negative : Bool) (digits : Nat) (exponent : Int) : Option Binary64 :=
  ofRatio? negative (digits * Nat.pow 10 exponent.toNat) (Nat.pow 10 (-exponent).toNat)

/-- The absolute value as a fraction. -/
def ratio (x : Binary64) : Nat × Nat :=
  (x.significand * Nat.pow 2 x.exponent.toNat, Nat.pow 2 (-x.exponent).toNat)

/-- The product, rounded; none when it is too large to be finite. -/
def mul? (x y : Binary64) : Option Binary64 :=
  ofRatio? (x.isNegative != y.isNegative) (x.ratio.1 * y.ratio.1) (x.ratio.2 * y.ratio.2)

/-- The quotient by a number other than zero, rounded; none when it is too large to be finite. -/
def div? (x y : Binary64) : Option Binary64 :=
  ofRatio? (x.isNegative != y.isNegative) (x.ratio.1 * y.ratio.2) (x.ratio.2 * y.ratio.1)

end Binary64

end TraceJournal
