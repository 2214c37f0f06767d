import GateBench.Number.Binary64
import GateBench.Number.Digits

/-!
What plain scalars stand for: nothing, truth values, whole numbers to several bases, decimals.  The
texts that stand for one of these have to be quoted to be read as texts by every reader.
-/

namespace GateBench.Yaml

/-- The words for nothing. -/
def nullWords : List String :=
  ["null", "Null", "NULL", "~"]

/-- The words that some reader takes for a truth value. -/
def truthWords : List String :=
  ["true", "True", "TRUE", "false", "False", "FALSE", "y", "Y", "yes", "Yes", "YES", "n", "N", "no",
    "No", "NO", "on", "On", "ON", "off", "Off", "OFF"]

/-- The bases that are told by a sign in front of the digits. -/
def basedForms : List (List Char × Nat) :=
  [(['0', 'x'], 16), (['0', 'o'], 8), (['0', 'b'], 2)]

/-- The value of digits with the sign of their base in front. -/
def basedValue? (chars : List Char) : Option Nat :=
  basedForms.findSome? fun (sign, base) =>
    if sign.isPrefixOf chars then Number.ofDigits? base (chars.drop sign.length) else none

/-- Text without the plus sign in front. -/
def dropPlus : List Char → List Char
  | '+' :: rest => rest
  | chars => chars

/-- Whether a text is several digits that start with a zero, which make no number. -/
def isPaddedDigits (chars : List Char) : Bool :=
  let digits := match chars with
    | '+' :: rest | '-' :: rest => rest
    | _ => chars
  digits.head? = some '0' && 1 < digits.length && digits.all Char.isDigit

/-- The whole number that a plain scalar stands for, if it is none below zero. -/
def wholeNumber? (text : String) : Option Nat :=
  let chars := dropPlus text.toList
  basedValue? chars <|>
    (if isPaddedDigits text.toList then none else Number.ofDigits? 10 chars)

/-- The magnitude of a decimal: digits with a point among them, and a power of ten. -/
def decimal? (chars : List Char) : Option Number.Decimal := do
  let whole := chars.takeWhile Char.isDigit
  let rest := chars.drop whole.length
  let fraction := if rest.head? = some '.' then (rest.drop 1).takeWhile Char.isDigit else []
  let rest := if rest.head? = some '.' then rest.drop (1 + fraction.length) else rest
  let digits ← Number.ofDigits? 10 (whole ++ fraction)
  let places : Int := fraction.length
  match rest with
  | [] => return ⟨digits, -places⟩
  | letter :: rest =>
    if letter ≠ 'e' ∧ letter ≠ 'E' then none
    let isNegative := rest.head? = some '-'
    let power : Int ← Number.ofDigits? 10 (if isNegative then rest.drop 1 else dropPlus rest)
    return ⟨digits, (if isNegative then -power else power) - places⟩

/-- Whether a plain scalar stands for a decimal, an infinity or no number. -/
def isDecimal (text : String) : Bool :=
  let unsigned := match text.toList with
    | '+' :: rest | '-' :: rest => rest
    | chars => chars
  ["inf", "Inf", "INF"].contains (String.ofList (unsigned.drop 1)) && unsigned.head? = some '.' ||
    [".nan", ".NaN", ".NAN"].contains text || (decimal? unsigned).any (·.toFloat.isFinite)

/-- Whether a plain scalar stands for a whole number to a base that is told, of at most 128 bits and
maybe below zero. -/
def isBased (text : String) : Bool :=
  (basedValue? (dropPlus text.toList)).any (· < 1 <<< 128) ||
    (text.toList.head? = some '-' && (basedValue? (text.toList.drop 1)).any (· ≤ 1 <<< 127))

/-- Whether a text means something else to some reader if it is written plain. -/
def isAmbiguous (text : String) : Bool :=
  text = "" || nullWords.contains text || truthWords.contains text || isBased text ||
    isPaddedDigits text.toList || isDecimal text

example : wholeNumber? "+0x1F" = some 31 := by decide
example : wholeNumber? "007" = none := by decide

end GateBench.Yaml
