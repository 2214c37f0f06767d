/-!
Binary floating point in sixty-four bits, seen as exact numbers: the significand and the power of
two of a finite value, and the nearest value of a quotient of whole numbers or of a decimal.
-/

namespace GateBench.Number

/-- The quotient of two whole numbers rounded to the nearest whole number; a half goes to the even
neighbour. -/
def roundQuotient (numerator denominator : Nat) : Nat :=
  let floor := numerator / denominator
  let twiceRest := 2 * (numerator % denominator)
  if denominator < twiceRest || (twiceRest == denominator && floor % 2 == 1) then floor + 1
  else floor

/-- The magnitude of a number as binary floating point stores it. -/
inductive Magnitude where
  | finite (significand : Nat) (exponent : Int)
  | infinite
  | notANumber
deriving DecidableEq, Repr

/-- The leading bit of a full significand, which is not stored. -/
def leadingBit : Nat :=
  1 <<< 52

/-- Split the stored bits into a sign (`true` for negative) and a magnitude.  A finite magnitude is
`significand * 2 ^ exponent`; the exponent is never below `-1074`. -/
def decompose (value : Float) : Bool × Magnitude :=
  let bits := value.toBits.toNat
  let negative : Bool := bits.testBit 63
  let stored : Nat := bits / leadingBit % 2048
  let fraction : Nat := bits % leadingBit
  let magnitude :=
    if stored = 2047 then
      if fraction = 0 then .infinite else .notANumber
    else if stored = 0 then .finite fraction (-1074)
    else .finite (leadingBit + fraction) (stored - 1075)
  (negative, magnitude)

/-- `amount * 2 ^ exponent` as a quotient of whole numbers. -/
def scaleByTwo (amount : Nat) (exponent : Int) : Nat × Nat :=
  if 0 ≤ exponent then (amount <<< exponent.toNat, 1) else (amount, 1 <<< (-exponent).toNat)

/-- The bits of the value nearest to `numerator / denominator`, ties to even.  With the exponent
chosen so that the significand has fifty-three bits (or is at the least exponent), sign-free bits
are `(exponent + 1074) * 2 ^ 52 + significand`; a carry into the next power of two comes out right
of itself, and whatever reaches the bits of infinity is infinite. -/
def nearestBits (numerator denominator : Nat) : Nat :=
  let guess : Int := numerator.log2 - denominator.log2 - 53
  let scaled (exponent : Int) : Nat × Nat :=
    let (top, bottom) := scaleByTwo numerator (-exponent)
    (top, bottom * denominator)
  let tooLarge : Bool := 2 * leadingBit ≤ (scaled guess).1 / (scaled guess).2
  let exponent := max (-1074) (if tooLarge then guess + 1 else guess)
  let significand := roundQuotient (scaled exponent).1 (scaled exponent).2
  min (2047 * leadingBit) ((exponent + 1074).toNat * leadingBit + significand)

/-- The value nearest to `numerator / denominator`. -/
def nearest (numerator denominator : Nat) : Float :=
  if numerator = 0 then 0.0 else Float.ofBits (nearestBits numerator denominator).toUInt64

/-- A decimal: `digits * 10 ^ exponent`. -/
structure Decimal where
  digits : Nat
  exponent : Int
deriving DecidableEq, Repr

/-- The number of decimal digits of a whole number, none for zero. -/
def digitCount (n : Nat) : Nat :=
  if n = 0 then 0 else (Nat.toDigits 10 n).length

/-- The value nearest to a decimal.  Beyond 310 digits before the point every decimal is infinite,
and with 330 zeros after it every decimal is zero, so such powers of ten are never computed. -/
def Decimal.toFloat (decimal : Decimal) : Float :=
  let size : Int := digitCount decimal.digits + decimal.exponent
  if decimal.digits = 0 || size < -330 then 0.0
  else if 310 < size then Float.ofBits 0x7FF0000000000000
  else if 0 ≤ decimal.exponent then nearest (decimal.digits * Nat.pow 10 decimal.exponent.toNat) 1
  else nearest decimal.digits (Nat.pow 10 (-decimal.exponent).toNat)

end GateBench.Number
