import GateBench.Number.Binary64

/-!
Decimal text of floating-point values: the fewest digits that read back, and a fixed number of
places.  Both are positional at every size; neither ever writes an exponent.
-/

namespace GateBench.Number

/-- The reals that round to one finite value, and the value itself, as multiples of a common power
of ten: `low` and `high` belong to it only when `closed`. -/
structure RoundingInterval where
  value : Nat
  low : Nat
  high : Nat
  closed : Bool
  exponent : Int
deriving Repr

/-- The rounding interval of `significand * 2 ^ exponent`.  It reaches half a unit to both sides, a
quarter below a power of two; a quarter of a unit is a whole multiple of some power of ten. -/
def roundingInterval (significand : Nat) (exponent : Int) : RoundingInterval :=
  let quarter := exponent - 2
  let factor := if 0 ≤ quarter then 1 <<< quarter.toNat else Nat.pow 5 (-quarter).toNat
  let below := if significand = leadingBit && -1074 < exponent then 1 else 2
  { value := 4 * significand * factor
    low := (4 * significand - below) * factor
    high := (4 * significand + 2) * factor
    closed := significand % 2 == 0
    exponent := min 0 quarter }

/-- Whether a point rounds to the value of the interval. -/
def RoundingInterval.contains (interval : RoundingInterval) (point : Nat) : Bool :=
  if interval.closed then interval.low ≤ point && point ≤ interval.high
  else interval.low < point && point < interval.high

/-- The nearest neighbour of the value on the grid of multiples of `step`, among the two that lie in
the interval; of two equally near ones the larger. -/
def RoundingInterval.onGrid? (interval : RoundingInterval) (step : Nat) : Option Nat :=
  let lower := interval.value / step * step
  let upper := lower + step
  match interval.contains lower, interval.contains upper with
  | true, true => some (if interval.value - lower < upper - interval.value then lower else upper)
  | true, false => some lower
  | false, true => some upper
  | false, false => none

/-- The shortest decimal that reads back as `significand * 2 ^ exponent`: the coarsest grid of
powers of ten that meets the rounding interval, and on it the nearest point.  Seventeen digits
always suffice. -/
def shortestDecimal (significand : Nat) (exponent : Int) : Decimal :=
  let interval := roundingInterval significand exponent
  let size := digitCount interval.value
  let attempt (count : Nat) : Option Decimal :=
    let power := size - count
    let step := Nat.pow 10 power
    (interval.onGrid? step).map fun point => ⟨point / step, power + interval.exponent⟩
  ((List.range 17).findSome? fun count => attempt (count + 1)).getD
    ⟨interval.value, interval.exponent⟩

/-- A whole number with leading zeros up to `width` digits. -/
def padDigits (width n : Nat) : String :=
  let digits := toString n
  "".pushn '0' (width - digits.length) ++ digits

/-- Positional text of a decimal without zeros at the end of its fraction, and without a point when
there is no fraction. -/
def Decimal.positional (decimal : Decimal) : String :=
  if 0 ≤ decimal.exponent then toString (decimal.digits * Nat.pow 10 decimal.exponent.toNat)
  else
    let places := (-decimal.exponent).toNat
    let whole := decimal.digits / Nat.pow 10 places
    let fraction := (padDigits places (decimal.digits % Nat.pow 10 places)).toList.reverse
    match fraction.dropWhile (· == '0') with
    | [] => toString whole
    | kept => toString whole ++ "." ++ String.ofList kept.reverse

/-- Write a value by its sign and the text of a finite magnitude. -/
def signedText (finite : Nat → Int → String) (value : Float) : String :=
  let (negative, magnitude) := decompose value
  let sign := if negative then "-" else ""
  match magnitude with
  | .finite significand exponent => sign ++ finite significand exponent
  | .infinite => sign ++ "inf"
  | .notANumber => "NaN"

/-- The shortest positional text that reads back as the value. -/
def shortest (value : Float) : String :=
  signedText (fun significand exponent =>
    if significand = 0 then "0" else (shortestDecimal significand exponent).positional) value

/-- The exact value rounded to `places` decimal places, a half to the even neighbour. -/
def fixedPlaces (places : Nat) (value : Float) : String :=
  signedText (fun significand exponent =>
    let (top, bottom) := scaleByTwo (significand * Nat.pow 10 places) exponent
    let rounded := roundQuotient top bottom
    let whole := toString (rounded / Nat.pow 10 places)
    if places = 0 then whole
    else whole ++ "." ++ padDigits places (rounded % Nat.pow 10 places)) value

end GateBench.Number
