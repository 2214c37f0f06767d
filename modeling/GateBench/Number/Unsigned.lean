import GateBench.Number.Digits

/-!
Unsigned whole numbers as they are typed: decimal digits, maybe with a plus sign in front, below a
bound.
-/

namespace GateBench.Number

/-- What is wrong with a typed number. -/
inductive UnsignedFault where
  | empty
  | invalidDigit
  | tooLarge
deriving DecidableEq, Repr

/-- A fault in words. -/
def UnsignedFault.message : UnsignedFault → String
  | .empty => "cannot parse integer from empty string"
  | .invalidDigit => "invalid digit found in string"
  | .tooLarge => "number too large to fit in target type"

/-- Append digits to a number below the bound.  The first fault from the left counts. -/
def appendDigits (bound value : Nat) : List Char → Except UnsignedFault Nat
  | [] => .ok value
  | c :: rest =>
    match digitValue? 10 c with
    | none => .error .invalidDigit
    | some digit =>
      if 10 * value + digit < bound then appendDigits bound (10 * value + digit) rest
      else .error .tooLarge

/-- The number below a bound that a text spells. -/
def parseUnsigned (bound : Nat) (text : String) : Except UnsignedFault Nat :=
  match text.toList with
  | [] => .error .empty
  | '+' :: c :: rest => appendDigits bound 0 (c :: rest)
  | chars => appendDigits bound 0 chars

example : parseUnsigned 256 "+255" = .ok 255 := by rfl
example : parseUnsigned 256 "256x" = .error .tooLarge := by rfl
example : parseUnsigned 256 "+" = .error .invalidDigit := by rfl

end GateBench.Number
