import GateBench.Number.Binary64
import GateBench.QualifiedName

/-!
Syntax trees of the gate-list language.
-/

namespace GateBench.Syntax

/-- The arithmetic operators of angles. -/
inductive Operator where
  | add
  | subtract
  | multiply
  | divide
deriving DecidableEq, Repr

/-- Binding strength; the higher binds tighter. -/
def Operator.precedence : Operator → Nat
  | .add | .subtract => 1
  | .multiply | .divide => 2

/-- Apply an operator to two values. -/
def Operator.apply : Operator → Float → Float → Float
  | .add, left, right => left + right
  | .subtract, left, right => left - right
  | .multiply, left, right => left * right
  | .divide, left, right => left / right

/-- An angle as it is written.  Parentheses leave no node. -/
inductive Expression where
  | number (value : Float)
  | pi
  | negate (inner : Expression)
  | binary (operator : Operator) (left right : Expression)
deriving DecidableEq

/-- The value nearest to the circle's ratio. -/
def piValue : Float :=
  Float.ofBits 0x400921FB54442D18

/-- The angle in radians. -/
def Expression.value : Expression → Float
  | .number value => value
  | .pi => piValue
  | .negate inner => -inner.value
  | .binary operator left right => operator.apply left.value right.value

/-- A gate as written, before it is looked up in the gate table. -/
structure GateCall where
  name : String
  parameters : List Expression
  qubits : List Nat
deriving DecidableEq

/-- What a statement does. -/
inductive Action where
  | gate (call : GateCall)
  | measure (qubit : Nat)
  | reset (qubit : Nat)
  | call (target : QualifiedName)
deriving DecidableEq

/-- A statement with the line it starts on. -/
structure Statement where
  action : Action
  line : Nat
deriving DecidableEq

/-- A declared operation; `line` is the line of its keyword. -/
structure Declaration where
  name : String
  isEntry : Bool
  line : Nat
  body : List Statement
deriving DecidableEq

/-- A parsed source: its namespace and its operations in order. -/
structure SourceFile where
  name : String
  scope : Option String
  declarations : List Declaration
deriving DecidableEq

end GateBench.Syntax
