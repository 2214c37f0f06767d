import GateBench.Number.Binary64

/-!
JSON values as they are written: members keep their order and may repeat, numbers keep their text,
and a string may hold escapes that stand for no characters.
-/

namespace GateBench

/-- A number: an unsigned whole number below `2 ^ 64`, or the text of any other. -/
inductive Numeral where
  | natural (value : Nat)
  | other (text : String)
deriving DecidableEq, Repr

/-- A JSON value.  The text of a string or of a member's name is `none` when one of its escapes is
half of a surrogate pair without the other half. -/
inductive Json where
  | null
  | bool (value : Bool)
  | number (value : Numeral)
  | string (text : Option String)
  | array (items : List Json)
  | object (members : List (Option String × Json))
deriving Repr

namespace Json

/-- A whole number. -/
def ofNat (n : Nat) : Json :=
  .number (.natural n)

/-- A string. -/
def ofString (text : String) : Json :=
  .string (some text)

/-- An object with these members in this order. -/
def ofMembers (members : List (String × Json)) : Json :=
  .object (members.map fun (name, value) => (some name, value))

end Json

/-- Append digits to a number while it stays below `2 ^ 64`; also the digits that are left. -/
def appendFitting (value : Nat) : List Char → Nat × List Char
  | [] => (value, [])
  | c :: others =>
    let next := 10 * value + (c.toNat - '0'.toNat)
    if next < UInt64.size then appendFitting next others else (value, c :: others)

/-- The parts of a number's text: the digits in front of the point and behind it, and its power of
ten. -/
def numberParts (text : List Char) : List Char × List Char × Int :=
  let unsigned := match text with
    | '-' :: others => others
    | _ => text
  let whole := unsigned.takeWhile Char.isDigit
  let (fraction, rest) := match unsigned.drop whole.length with
    | '.' :: others => (others.takeWhile Char.isDigit, others.dropWhile Char.isDigit)
    | others => ([], others)
  let value (digits : List Char) : Int := digits.foldl (fun n c => 10 * n + (c.toNat - 48)) 0
  let exponent := match rest with
    | _ :: '-' :: digits => -value digits
    | _ :: '+' :: digits => value digits
    | _ :: digits => value digits
    | [] => 0
  (whole, fraction, exponent)

/-- Whether a number has a finite value in binary floating point.  The value is the product of its
leading digits, as far as they fit in sixty-four bits, and a power of ten, both rounded. -/
def isFiniteNumber (text : String) : Bool :=
  let (whole, fraction, exponent) := numberParts text.toList
  let (significand, wholeLeft) := appendFitting 0 whole
  let (significand, fractionLeft) := appendFitting significand fraction
  let power := exponent + wholeLeft.length - (fraction.length - fractionLeft.length : Nat)
  significand = 0 || power ≤ 0 || (power ≤ 308 &&
    (Number.nearest significand 1 * (Number.Decimal.toFloat ⟨1, power⟩)).isFinite)

/-- Whether a number has a finite value. -/
def Numeral.isFinite : Numeral → Bool
  | .natural _ => true
  | .other text => isFiniteNumber text

namespace Json

mutual

/-- Whether a value holds only proper strings and finite numbers, and nests arrays and objects at
most `levels` deep. -/
def isSound (levels : Nat) : Json → Bool
  | .null => true
  | .bool _ => true
  | .number value => value.isFinite
  | .string text => text.isSome
  | .array items => 0 < levels && allSound (levels - 1) items
  | .object members => 0 < levels && membersSound (levels - 1) members

/-- Whether all values of a list are sound. -/
def allSound (levels : Nat) : List Json → Bool
  | [] => true
  | first :: others => first.isSound levels && allSound levels others

/-- Whether all members of a list are sound, with their names. -/
def membersSound (levels : Nat) : List (Option String × Json) → Bool
  | [] => true
  | (name, value) :: others =>
    name.isSome && value.isSound levels && membersSound levels others

end

end Json

end GateBench
