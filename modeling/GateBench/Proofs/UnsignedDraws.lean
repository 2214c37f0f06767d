import GateBench.Proofs.BasisStates
import GateBench.Simulation.Random
import Mathlib

/-!
Binary floating point around zero.  Zero divided by a number above zero is zero again, and what a
generator draws is never below zero, because no number that it computes with has a minus sign.
-/

namespace GateBench.Simulation

open Float.Model (Format UnpackedFloat)

/-! ### Signs -/

/-- A number, or none, without a minus sign. -/
def IsUnsigned : UnpackedFloat → Prop
  | .notANumber => True
  | .infinity sign | .zero sign | .finite sign _ _ _ => sign = .positive

variable {format : Format} {first second number : UnpackedFloat}

theorem unpackSign_pack (hnumber : IsUnsigned number) :
    UnpackedFloat.unpackSign (number.pack format) = 0#1 := by
  fun_cases UnpackedFloat.pack format number with
  | case1 => exact UnpackedFloat.unpackSign_packComponents _ _ _
  | case2 sign | case3 sign | case4 sign | case5 sign | case6 sign =>
      obtain rfl : sign = .positive := hnumber
      exact UnpackedFloat.unpackSign_packComponents _ _ _

theorem isUnsigned_unpack {bits : BitVec format.numBits}
    (hsign : UnpackedFloat.unpackSign bits = 0#1) :
    IsUnsigned (UnpackedFloat.unpack format bits) := by
  unfold UnpackedFloat.unpack
  rw [hsign]
  dsimp only
  split_ifs
  · exact rfl
  · trivial
  · exact rfl
  · exact rfl
  · exact rfl

theorem isUnsigned_roundWithAccuracy (mantissa : Nat) (exponent : Int)
    (accuracy : UnpackedFloat.Accuracy) :
    IsUnsigned (UnpackedFloat.roundWithAccuracy format .positive mantissa exponent accuracy) := by
  unfold UnpackedFloat.roundWithAccuracy
  dsimp only
  split_ifs
  all_goals exact rfl

theorem mul_positive {left right : UnpackedFloat.Sign} (hleft : left = .positive)
    (hright : right = .positive) : left * right = .positive := by
  rw [hleft, hright]
  rfl

theorem isUnsigned_mul (hfirst : IsUnsigned first) (hsecond : IsUnsigned second) :
    IsUnsigned (UnpackedFloat.mul format first second) := by
  fun_cases UnpackedFloat.mul format first second with
  | case1 | case2 | case6 | case7 => trivial
  | case3 | case4 | case5 | case8 | case9 | case10 => exact mul_positive hfirst hsecond
  | case11 =>
      rw [mul_positive hfirst hsecond]
      exact isUnsigned_roundWithAccuracy _ _ _

theorem isUnsigned_ofUInt64 (word : UInt64) :
    IsUnsigned (UnpackedFloat.ofUInt64 format word) := by
  rw [UnpackedFloat.ofUInt64, UnpackedFloat.ofNat, UnpackedFloat.ofInt, UnpackedFloat.normalize]
  split
  next hnegative =>
      rw [Int.compare_eq_lt] at hnegative
      omega
  next => rfl
  next => exact isUnsigned_roundWithAccuracy _ _ _

/-! ### Numbers of the machine -/

theorem unpack_zero : (Scalar.zero : Float).toModel.unpack = .zero .positive :=
  rfl

theorem less_eq (left right : Float) :
    Scalar.less left right =
      (left.toModel.unpack.compare right.toModel.unpack == some .lt) :=
  Bool.eq_iff_iff.mpr (decide_eq_true_iff.trans decide_eq_true_iff)

theorem isUnsigned_unpack_pack (hnumber : IsUnsigned number) :
    IsUnsigned (Float.Model.pack number).unpack :=
  isUnsigned_unpack (unpackSign_pack hnumber)

/-- A number without a minus sign is not below zero. -/
theorem not_less_zero {value : Float} (hvalue : IsUnsigned value.toModel.unpack) :
    Scalar.less value Scalar.zero = false := by
  rw [less_eq, unpack_zero]
  cases hunpack : value.toModel.unpack with
  | notANumber | zero sign => rfl
  | infinity sign | finite sign =>
      rw [hunpack] at hvalue
      cases hvalue
      rfl

/-- Zero divided by a number above zero is zero. -/
theorem zero_div {divisor : Float} (hdivisor : Scalar.less Scalar.zero divisor = true) :
    Scalar.zero / divisor = Scalar.zero := by
  rw [less_eq, unpack_zero] at hdivisor
  have hquotient : UnpackedFloat.div .binary64 (.zero .positive) divisor.toModel.unpack =
      .zero .positive := by
    cases hunpack : divisor.toModel.unpack with
    | notANumber | zero sign =>
        rw [hunpack] at hdivisor
        cases hdivisor
    | infinity sign | finite sign =>
        rw [hunpack] at hdivisor
        cases sign with
        | negative => cases hdivisor
        | positive => rfl
  change Float.ofModel (.pack (UnpackedFloat.div .binary64 (.zero .positive)
    divisor.toModel.unpack)) = _
  rw [hquotient]
  rfl

/-- The number of two drawn words has no minus sign. -/
theorem fraction_not_less_zero (word : UInt64) :
    Scalar.less (word.toFloat * Float.ofBits 0x3CA0000000000000) Scalar.zero = false := by
  have hunit : IsUnsigned (Float.ofBits 0x3CA0000000000000).toModel.unpack :=
    isUnsigned_unpack_pack rfl
  have hword : IsUnsigned word.toFloat.toModel.unpack :=
    isUnsigned_unpack_pack (isUnsigned_ofUInt64 word)
  exact not_less_zero (isUnsigned_unpack_pack (isUnsigned_mul hword hunit))

/-- What a generator draws is not below zero. -/
theorem draw_not_less_zero (generator : Generator) :
    Scalar.less generator.draw.1 Scalar.zero = false := by
  unfold Generator.draw
  dsimp only
  split
  · exact fraction_not_less_zero _
  · split
    · exact fraction_not_less_zero _
    · change Scalar.less (0.0 : Float) Scalar.zero = false
      decide +kernel

end GateBench.Simulation
