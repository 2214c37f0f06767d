/-!
Circuit diagrams: a wire per qubit and a tree of boxes.  A box that stands for a call holds the
boxes of the called operation.
-/

namespace GateBench.Message

/-- What a register stands for. -/
inductive RegisterKind where
  | qubit
  | classical
deriving DecidableEq, Repr

/-- A qubit's wire, or one of the classical result slots that hang off it. -/
structure Register where
  qubit : Nat
  kind : RegisterKind
  slot : Option Nat
deriving DecidableEq, Repr

/-- The wire of a qubit. -/
def Register.ofQubit (qubit : Nat) : Register :=
  ⟨qubit, .qubit, none⟩

/-- A result slot of a qubit. -/
def Register.ofResult (qubit slot : Nat) : Register :=
  ⟨qubit, .classical, some slot⟩

/-- A box of a diagram. -/
structure Box where
  gate : String
  argument : Option String
  isControlled : Bool
  isMeasurement : Bool
  controls : List Register
  targets : List Register
  children : List Box
deriving Repr

/-- A box without controls, argument or contents. -/
def Box.plain (gate : String) (targets : List Register) : Box :=
  { gate, argument := none, isControlled := false, isMeasurement := false, controls := [], targets,
    children := [] }

mutual

/-- The boxes without contents in a box; a box without contents is one itself. -/
def Box.leaves : Box → Nat
  | ⟨_, _, _, _, _, _, []⟩ => 1
  | ⟨_, _, _, _, _, _, first :: others⟩ => first.leaves + Box.leavesOfAll others

/-- The boxes without contents in a list of boxes. -/
def Box.leavesOfAll : List Box → Nat
  | [] => 0
  | first :: others => first.leaves + Box.leavesOfAll others

end

/-- A qubit's wire and how many results it has. -/
structure Wire where
  qubit : Nat
  results : Nat
deriving DecidableEq, Repr

/-- A whole diagram. -/
structure Diagram where
  wires : List Wire
  boxes : List Box
deriving Repr

/-- The boxes without contents in a diagram. -/
def Diagram.leaves (diagram : Diagram) : Nat :=
  Box.leavesOfAll diagram.boxes

end GateBench.Message
