/-!
Where bytes stop being UTF-8.
-/

namespace GateBench.Text

/-- Why bytes are no UTF-8: a sequence that starts at an index is wrong behind its first `length`
bytes, or the bytes end within it. -/
inductive Utf8Fault where
  | invalid (length index : Nat)
  | incomplete (index : Nat)
deriving DecidableEq, Repr

/-- A fault in words. -/
def Utf8Fault.message : Utf8Fault → String
  | .invalid length index =>
    "invalid utf-8 sequence of " ++ toString length ++ " bytes from index " ++ toString index
  | .incomplete index => "incomplete utf-8 byte sequence from index " ++ toString index

/-- The lowest and the highest byte that may stand at a place. -/
abbrev ByteRange := UInt8 × UInt8

/-- The bytes that go on a sequence. -/
def continuation : ByteRange :=
  (0x80, 0xBF)

/-- What has to follow the first byte of a sequence; `none` if none starts with it. -/
def following (first : UInt8) : Option (List ByteRange) :=
  if first < 0x80 then some []
  else if first < 0xC2 then none
  else if first < 0xE0 then some [continuation]
  else if first = 0xE0 then some [(0xA0, 0xBF), continuation]
  else if first = 0xED then some [(0x80, 0x9F), continuation]
  else if first < 0xF0 then some [continuation, continuation]
  else if first = 0xF0 then some [(0x90, 0xBF), continuation, continuation]
  else if first < 0xF4 then some [continuation, continuation, continuation]
  else if first = 0xF4 then some [(0x80, 0x8F), continuation, continuation]
  else none

/-- The first fault, in the middle of a sequence that starts at the index `start`: `count` of its
bytes were read and `expected` is still to come. -/
def faultFrom (start count : Nat) (expected : List ByteRange) : List UInt8 → Option Utf8Fault
  | [] => if expected = [] then none else some (.incomplete start)
  | byte :: others =>
    match expected with
    | [] =>
      match following byte with
      | none => some (.invalid 1 start)
      | some [] => faultFrom (start + 1) 0 [] others
      | some ranges => faultFrom start 1 ranges others
    | (low, high) :: ranges =>
      if low ≤ byte ∧ byte ≤ high then
        if ranges = [] then faultFrom (start + count + 1) 0 [] others
        else faultFrom start (count + 1) ranges others
      else some (.invalid count start)

/-- The first fault of bytes. -/
def utf8Fault? (bytes : List UInt8) : Option Utf8Fault :=
  faultFrom 0 0 [] bytes

example : utf8Fault? "a€😀".toUTF8.toList = none := by decide +kernel
example : utf8Fault? [0x7B, 0xC3, 0x28] = some (.invalid 1 1) := by decide
example : utf8Fault? [0xE2, 0x82] = some (.incomplete 0) := by decide
example : utf8Fault? [0xF0, 0x9F, 0x98, 0x0A] = some (.invalid 3 0) := by decide

end GateBench.Text
