import TraceJournal.Number.Binary64
import TraceJournal.Text.Digits

/-!
# Shortest decimals

The fewest decimal digits that read back as a given binary64 number, and among the decimals of
that length the one nearest to it; the even one in the exact middle.

Around a number lies the interval of the reals that round to it. Its ends belong to it when the
significand is even. For each length in turn the two decimals around the number are tried: if any
decimal of that length lies in the interval, one of those two does.

Library serde_json, which writes the shortest digits.
-/

namespace TraceJournal.Number

/-- A positive decimal `digits · 10^exponent`. -/
structure Decimal where
  digits : Nat
  exponent : Int
  deriving DecidableEq, Repr

/-- The interval of the reals that round to a positive number, scaled by a power of two to whole
numbers: lower end, the number itself, upper end and the scale as a fraction. -/
structure Rounding where
  lower : Nat
  value : Nat
  upper : Nat
  /-- Both ends belong to the interval. -/
  closed : Bool
  /-- The unit of the three numbers above is `scaleNum / scaleDen`. -/
  scaleNum : Nat
  scaleDen : Nat

/-- The rounding interval of a number. Right below a power of two the numbers stand twice as close
as right above it. -/
def Rounding.of (x : Binary64) : Rounding :=
  let m := x.significand
  let q := x.exponent - 2
  { lower := if m = 0x10000000000000 ∧ -1074 < x.exponent then 4 * m - 1 else 4 * m - 2
    value := 4 * m
    upper := 4 * m + 2
    closed := m % 2 == 0
    scaleNum := Nat.pow 2 q.toNat
    scaleDen := Nat.pow 2 (-q).toNat }

/-- The fraction `num / den` lies in the interval. -/
def Rounding.contains (r : Rounding) (num den : Nat) : Bool :=
  let lower := r.lower * r.scaleNum * den
  let upper := r.upper * r.scaleNum * den
  let point := num * r.scaleDen
  if r.closed then lower ≤ point && point ≤ upper else lower < point && point < upper

/-- The largest `e` with `10^e ≤ num / den`, for a positive fraction. The search starts at most
one above it. -/
def floorLog10 (num den : Nat) : Int :=
  let digitsDiff : Int := ((Nat.toDigits 10 num).length : Int) - (Nat.toDigits 10 den).length
  if den * Nat.pow 10 digitsDiff.toNat ≤ num * Nat.pow 10 (-digitsDiff).toNat then digitsDiff
  else digitsDiff - 1

/-- The nearer of the two decimals on the grid `10^exponent` around a number, if one of them lies
in the rounding interval. -/
def onGrid? (r : Rounding) (exponent : Int) : Option Decimal :=
  let num := r.value * r.scaleNum * Nat.pow 10 (-exponent).toNat
  let den := r.scaleDen * Nat.pow 10 exponent.toNat
  let gridNum := Nat.pow 10 exponent.toNat
  let gridDen := Nat.pow 10 (-exponent).toNat
  let below := num / den
  let nearest := Binary64.roundHalfEven num den
  let other := if nearest = below then below + 1 else below
  if r.contains (nearest * gridNum) gridDen then some ⟨nearest, exponent⟩
  else if r.contains (other * gridNum) gridDen then some ⟨other, exponent⟩
  else none

/-- The shortest decimal of a number other than zero. Seventeen digits always suffice. -/
def shortest (x : Binary64) : Decimal :=
  let r := Rounding.of x
  let top := floorLog10 (r.value * r.scaleNum) r.scaleDen
  let tries := (List.range 17).filterMap fun (n : Nat) => onGrid? r (top - (n : Int))
  tries.headD ⟨0, 0⟩

/-- A decimal without zeros at the end of its digits, as the digits and the power of ten of the
first of them. -/
def Decimal.scientific (d : Decimal) : List Char × Int :=
  let digits := Nat.toDigits 10 d.digits
  let kept := (digits.reverse.dropWhile (· == '0')).reverse
  (kept, d.exponent + digits.length - 1)

/-- The text of a number in traces. From 10^-5 up to below 10^16 it is positional, with at least
one place after the point; outside it has one digit before the point and a signed exponent. -/
def text (x : Binary64) : List Char :=
  let sign := if x.isNegative then ['-'] else []
  if x.isZero then sign ++ ['0', '.', '0']
  else
    let (digits, e) := (shortest x).scientific
    if 0 ≤ e ∧ e ≤ 15 then
      let whole := digits.take (e.toNat + 1)
      let places := digits.drop (e.toNat + 1)
      sign ++ whole ++ List.replicate (e.toNat + 1 - whole.length) '0' ++
        '.' :: (if places.isEmpty then ['0'] else places)
    else if -5 ≤ e ∧ e < 0 then
      sign ++ '0' :: '.' :: List.replicate ((-e).toNat - 1) '0' ++ digits
    else
      let places := digits.drop 1
      sign ++ digits.take 1 ++ (if places.isEmpty then [] else '.' :: places) ++
        'e' :: (if e < 0 then '-' else '+') :: TraceJournal.Text.decimal e.natAbs

end TraceJournal.Number
