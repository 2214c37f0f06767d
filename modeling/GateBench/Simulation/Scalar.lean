/-!
The arithmetic that a simulation needs.  A state holds amplitudes over any scalar type with these
operations; running programs uses binary floating point.
-/

namespace GateBench.Simulation

/-- Scalars of amplitudes.  Numbers that come from a program, such as the sine of an angle, are
converted by `ofFloat`. -/
class Scalar (α : Type) extends Add α, Sub α, Mul α, Div α, Neg α where
  zero : α
  one : α
  sqrt : α → α
  less : α → α → Bool
  ofFloat : Float → α

instance : Scalar Float where
  zero := 0.0
  one := 1.0
  sqrt := Float.sqrt
  less left right := left < right
  ofFloat value := value

/-- A complex number. -/
structure Complex (α : Type) where
  re : α
  im : α
deriving DecidableEq, Repr

namespace Complex

variable {α : Type} [Scalar α]

instance : Add (Complex α) where
  add left right := ⟨left.re + right.re, left.im + right.im⟩

instance : Sub (Complex α) where
  sub left right := ⟨left.re - right.re, left.im - right.im⟩

instance : Neg (Complex α) where
  neg value := ⟨-value.re, -value.im⟩

instance : Mul (Complex α) where
  mul left right :=
    ⟨left.re * right.re - left.im * right.im, left.re * right.im + left.im * right.re⟩

/-- The number zero. -/
def zero : Complex α :=
  ⟨Scalar.zero, Scalar.zero⟩

/-- The number one. -/
def one : Complex α :=
  ⟨Scalar.one, Scalar.zero⟩

/-- Both parts times a scalar. -/
def scale (factor : α) (value : Complex α) : Complex α :=
  ⟨factor * value.re, factor * value.im⟩

/-- Both parts divided by a scalar. -/
def shrink (value : Complex α) (divisor : α) : Complex α :=
  ⟨value.re / divisor, value.im / divisor⟩

/-- The squared magnitude. -/
def normSquared (value : Complex α) : α :=
  value.re * value.re + value.im * value.im

/-- The number of magnitude one at an angle. -/
def unit (angle : Float) : Complex α :=
  ⟨Scalar.ofFloat angle.cos, Scalar.ofFloat angle.sin⟩

end Complex

end GateBench.Simulation
