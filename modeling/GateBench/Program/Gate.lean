/-!
The gate table.
-/

namespace GateBench.Program

/-- A gate with its angle, if it takes one. -/
inductive Gate where
  | h
  | x
  | y
  | z
  | s
  | sInverse
  | t
  | tInverse
  | rotateX (angle : Float)
  | rotateY (angle : Float)
  | rotateZ (angle : Float)
  | phase (angle : Float)
  | controlledX
  | controlledZ
  | swap
  | doublyControlledX
deriving DecidableEq

/-- A row of the gate table: how many angles and qubits a gate takes, and the gate for an angle.  A
gate without an angle is the same for every angle. -/
structure GateRow where
  parameters : Nat
  qubits : Nat
  gate : Float → Gate

/-- The row of a gate's name; names are lower case. -/
def gateRow? : String → Option GateRow
  | "h" => some ⟨0, 1, fun _ => .h⟩
  | "x" => some ⟨0, 1, fun _ => .x⟩
  | "y" => some ⟨0, 1, fun _ => .y⟩
  | "z" => some ⟨0, 1, fun _ => .z⟩
  | "s" => some ⟨0, 1, fun _ => .s⟩
  | "sdg" => some ⟨0, 1, fun _ => .sInverse⟩
  | "t" => some ⟨0, 1, fun _ => .t⟩
  | "tdg" => some ⟨0, 1, fun _ => .tInverse⟩
  | "rx" => some ⟨1, 1, .rotateX⟩
  | "ry" => some ⟨1, 1, .rotateY⟩
  | "rz" => some ⟨1, 1, .rotateZ⟩
  | "p" => some ⟨1, 1, .phase⟩
  | "cx" => some ⟨0, 2, fun _ => .controlledX⟩
  | "cz" => some ⟨0, 2, fun _ => .controlledZ⟩
  | "swap" => some ⟨0, 2, fun _ => .swap⟩
  | "ccx" => some ⟨0, 3, fun _ => .doublyControlledX⟩
  | _ => none

/-- The label of a gate's box in a diagram.  Controls are drawn apart from the box. -/
def Gate.label : Gate → String
  | .h => "H"
  | .x | .controlledX | .doublyControlledX => "X"
  | .y => "Y"
  | .z | .controlledZ => "Z"
  | .s => "S"
  | .sInverse => "S'"
  | .t => "T"
  | .tInverse => "T'"
  | .rotateX _ => "Rx"
  | .rotateY _ => "Ry"
  | .rotateZ _ => "Rz"
  | .phase _ => "P"
  | .swap => "SWAP"

/-- The angle of a gate that takes one. -/
def Gate.angle? : Gate → Option Float
  | .rotateX angle | .rotateY angle | .rotateZ angle | .phase angle => some angle
  | _ => none

/-- How many of a gate's first qubits are controls. -/
def Gate.controls : Gate → Nat
  | .controlledX | .controlledZ => 1
  | .doublyControlledX => 2
  | _ => 0

end GateBench.Program
