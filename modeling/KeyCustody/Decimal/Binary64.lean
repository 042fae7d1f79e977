/-!
# Binary floating-point numbers

A number with 53 significant bits is kept as its 64-bit pattern, and all
arithmetic on it is exact arithmetic on natural numbers followed by one
rounding.  This makes every result a matter of definition.

The file holds the rounding of a quotient to the nearest such number, the
scaling by powers of ten by which decimals are read, and the fewest digits that
read back as a given number.
-/

namespace KeyCustody

/-- A floating-point number by its bit pattern: sign, eleven bits of exponent
and 52 bits of fraction. -/
structure Binary64 where
  bits : UInt64
deriving DecidableEq, Repr, Inhabited

namespace Binary64

/-- The bit of the pattern that holds the sign. -/
def signBit : Nat := 1 <<< 63

/-- The lowest bit of the exponent in the pattern, and the leading bit of a
significand with all its bits. -/
def hiddenBit : Nat := 1 <<< 52

/-- The bit pattern above all finite magnitudes. -/
def infinityBits : Nat := 0x7FF * hiddenBit

def tenPower (exponent : Nat) : Nat := Nat.pow 10 exponent

def magnitude (x : Binary64) : Nat := x.bits.toNat % signBit

def isNegative (x : Binary64) : Bool := signBit ≤ x.bits.toNat

/-- The number with a given sign and a magnitude below the sign bit. -/
def ofMagnitude (negative : Bool) (magnitude : Nat) : Binary64 :=
  ⟨UInt64.ofNat (if negative then signBit + magnitude else magnitude)⟩

/-- A finite magnitude is `significand * 2 ^ exponent`. -/
structure Scaled where
  significand : Nat
  exponent : Int
deriving DecidableEq, Repr

/-- The value of a finite magnitude.  Patterns below the hidden bit are
subnormal and share the least exponent. -/
def scaled (magnitude : Nat) : Scaled :=
  let exponent : Nat := magnitude / hiddenBit
  let fraction : Nat := magnitude % hiddenBit
  if exponent = 0 then ⟨fraction, -1074⟩
  else ⟨hiddenBit + fraction, (exponent : Int) - 1075⟩

/-- The quotient of two numbers rounded to the nearest integer, a half to the
even neighbour. -/
def roundDiv (numerator denominator : Nat) : Nat :=
  let quotient := numerator / denominator
  let twice := 2 * (numerator % denominator)
  if twice < denominator then quotient
  else if denominator < twice then quotient + 1
  else if quotient % 2 = 0 then quotient
  else quotient + 1

/-- The magnitude nearest to the quotient of two positive numbers.  At first
the exponent is chosen so that the significand has 53 bits; the least exponent
stops it from falling further.  A significand that rounds up to 54 bits
carries into the exponent of the pattern, where it belongs. -/
def magnitudeOfRatio (numerator denominator : Nat) : Nat :=
  if numerator = 0 then 0
  else
    let guess : Int :=
      (Nat.log2 numerator : Int) - Nat.log2 denominator - 52
    let reaches (exponent : Int) : Bool :=
      (hiddenBit * denominator) <<< exponent.toNat ≤
        numerator <<< (-exponent).toNat
    let exponent := max (if reaches guess then guess else guess - 1) (-1074)
    let significand :=
      roundDiv (numerator <<< (-exponent).toNat)
        (denominator <<< exponent.toNat)
    min ((exponent + 1074).toNat * hiddenBit + significand) infinityBits

/-- The quotient of two finite magnitudes with both scaled to integers. -/
def ratioOf (left right : Scaled) : Nat × Nat :=
  let exponent := left.exponent - right.exponent
  (left.significand <<< exponent.toNat,
    right.significand <<< (-exponent).toNat)

def magnitudeOfNat (n : Nat) : Nat :=
  magnitudeOfRatio n 1

def mulMagnitude (left right : Nat) : Nat :=
  let first := scaled left
  let second := scaled right
  let exponent := first.exponent + second.exponent
  magnitudeOfRatio
    ((first.significand * second.significand) <<< exponent.toNat)
    (1 <<< (-exponent).toNat)

def divMagnitude (left right : Nat) : Nat :=
  let ratio := ratioOf (scaled left) (scaled right)
  magnitudeOfRatio ratio.1 ratio.2

/-- The greatest power of ten that is a finite magnitude. -/
def greatestTenPower : Nat := 308

/-- Division by a power of ten in steps that stay finite.  Once nothing is
left there is nothing more to divide. -/
def divTenPower (magnitude : Nat) (power : Nat) : Nat :=
  if power ≤ greatestTenPower then
    divMagnitude magnitude (magnitudeOfNat (tenPower power))
  else if magnitude = 0 then 0
  else
    divTenPower
      (divMagnitude magnitude (magnitudeOfNat (tenPower greatestTenPower)))
      (power - greatestTenPower)
termination_by power
decreasing_by
  have : 0 < greatestTenPower := by decide
  omega

/-- The number `significand * 10 ^ exponent` as it is read from a decimal: the
significand is rounded first, and then the product or quotient with the rounded
power of ten.  There is no result when the number is too large. -/
def ofDecimal? (negative : Bool) (significand : Nat) (exponent : Int) :
    Option Binary64 :=
  let start := magnitudeOfNat significand
  if exponent < 0 then
    some (ofMagnitude negative (divTenPower start (-exponent).toNat))
  else if start = 0 then
    some (ofMagnitude negative 0)
  else if exponent.toNat ≤ greatestTenPower then
    let product := mulMagnitude start (magnitudeOfNat (tenPower exponent.toNat))
    if product < infinityBits then some (ofMagnitude negative product)
    else none
  else none

/-- The decimal `digits * 10 ^ exponent`. -/
structure Decimal where
  digits : Nat
  exponent : Int
deriving DecidableEq, Repr

def Decimal.ratio (decimal : Decimal) : Nat × Nat :=
  (decimal.digits * tenPower decimal.exponent.toNat,
    tenPower (-decimal.exponent).toNat)

/-- Whether a decimal is read back as the given magnitude when it is rounded
correctly. -/
def Decimal.readsAs (decimal : Decimal) (magnitude : Nat) : Bool :=
  magnitudeOfRatio decimal.ratio.1 decimal.ratio.2 == magnitude

/-- The distance between a decimal and a finite magnitude, multiplied by a
factor that depends on the magnitude and the decimal's exponent only. -/
def Decimal.distance (decimal : Decimal) (value : Scaled) : Nat :=
  let binary :=
    (value.significand * tenPower (-decimal.exponent).toNat) <<<
      value.exponent.toNat
  let tens :=
    (decimal.digits * tenPower decimal.exponent.toNat) <<<
      (-value.exponent).toNat
  (binary - tens) + (tens - binary)

/-- The two neighbours of a magnitude among the multiples of `10 ^ exponent`,
the nearer one first and the even one first when both are as near. -/
def neighbours (value : Scaled) (exponent : Int) : List Decimal :=
  let below :=
    (value.significand * tenPower (-exponent).toNat) <<<
        value.exponent.toNat /
      tenPower exponent.toNat <<< (-value.exponent).toNat
  let low : Decimal := ⟨below, exponent⟩
  let high : Decimal := ⟨below + 1, exponent⟩
  let lowDistance := low.distance value
  let highDistance := high.distance value
  if lowDistance < highDistance ||
      (lowDistance == highDistance && below % 2 == 0) then [low, high]
  else [high, low]

/-- The first decimal with few digits that reads back, starting on the grid of
multiples of `10 ^ exponent` and refining it `steps` times at most. -/
def searchDecimal (magnitude : Nat) (exponent : Int) : Nat → Option Decimal
  | 0 => none
  | steps + 1 =>
      match (neighbours (scaled magnitude) exponent).find?
          fun decimal => decimal.readsAs magnitude with
      | some decimal => some decimal
      | none => searchDecimal magnitude (exponent - 1) steps

/-- A decimal without trailing zeros among its digits. -/
def Decimal.stripped (decimal : Decimal) : Nat → Decimal
  | 0 => decimal
  | steps + 1 =>
      if decimal.digits ≠ 0 && decimal.digits % 10 == 0 then
        Decimal.stripped ⟨decimal.digits / 10, decimal.exponent + 1⟩ steps
      else decimal

/-- The power of ten below which a finite positive magnitude lies, or one
above it. -/
def decimalCeiling (value : Scaled) : Int :=
  let bits : Int := (Nat.log2 value.significand : Int) + 1 + value.exponent
  bits * 30103 / 100000 + 1

/-- The decimal with the fewest digits that reads back as a finite magnitude.
Seventeen digits always suffice. -/
def shortest (magnitude : Nat) : Decimal :=
  if magnitude = 0 then ⟨0, 0⟩
  else
    let start := decimalCeiling (scaled magnitude)
    match searchDecimal magnitude start 20 with
    | some decimal => decimal.stripped 20
    | none => ⟨0, 0⟩

end Binary64

end KeyCustody
