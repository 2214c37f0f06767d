/-!
Digits of whole numbers to a base of at most sixteen.
-/

namespace GateBench.Number

/-- What a digit counts to a base, if it is one; letters count in either case. -/
def digitValue? (base : Nat) (c : Char) : Option Nat :=
  let value :=
    if '0' ≤ c && c ≤ '9' then c.toNat - '0'.toNat
    else if 'a' ≤ c && c ≤ 'f' then c.toNat - 'a'.toNat + 10
    else if 'A' ≤ c && c ≤ 'F' then c.toNat - 'A'.toNat + 10
    else base
  if value < base then some value else none

/-- The number that a row of at least one digit spells to a base. -/
def ofDigits? (base : Nat) : List Char → Option Nat
  | [] => none
  | digits => digits.foldlM (fun value c => (digitValue? base c).map (base * value + ·)) 0

example : ofDigits? 16 ['f', 'F'] = some 255 := by decide
example : ofDigits? 8 ['1', '8'] = none := by decide

end GateBench.Number
