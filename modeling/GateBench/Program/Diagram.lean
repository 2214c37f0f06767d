import GateBench.Number.Shortest
import GateBench.Program.Basic

/-!
The circuit diagram of an operation.  A call becomes a box around the boxes of its callee; each
measurement of a qubit takes the next result slot of that qubit's wire.
-/

namespace GateBench.Program

open GateBench.Message

/-- The box of a gate: its first qubits are controls, its angle is shown to four places. -/
def gateBox (gate : Gate) (qubits : List Nat) : Box :=
  let controls := qubits.take gate.controls
  { gate := gate.label
    argument := gate.angle?.map (Number.fixedPlaces 4)
    isControlled := !controls.isEmpty
    isMeasurement := false
    controls := controls.map .ofQubit
    targets := (qubits.drop gate.controls).map .ofQubit
    children := [] }

/-- The box of a measurement into a result slot. -/
def measureBox (qubit slot : Nat) : Box :=
  { gate := "Measure"
    argument := none
    isControlled := false
    isMeasurement := true
    controls := [.ofQubit qubit]
    targets := [.ofResult qubit slot]
    children := [] }

/-- How many results every qubit has so far. -/
abbrev ResultCounts := Array Nat

/-- The box of an instruction, and the results counted after it. -/
def instructionBox (counts : ResultCounts) : Instruction → Box × ResultCounts
  | .gate gate qubits => (gateBox gate qubits, counts)
  | .measure qubit => (measureBox qubit (counts[qubit]?.getD 0), counts.modify qubit (· + 1))
  | .reset qubit => (.plain "|0〉" [.ofQubit qubit], counts)

/-- The boxes of steps in order, given the box of every call. -/
def stepBoxes (callBox : Nat → ResultCounts → Box × ResultCounts) :
    List Step → ResultCounts → List Box × ResultCounts
  | [], counts => ([], counts)
  | step :: others, counts =>
    let (box, counts) := match step.action with
      | .perform instruction => instructionBox counts instruction
      | .call callee => callBox callee counts
    let (boxes, counts) := stepBoxes callBox others counts
    (box :: boxes, counts)

/-- The boxes of an operation, following calls at most `depth` deep. -/
def boxesTo (program : Program) :
    Nat → Nat → ResultCounts → List Box × ResultCounts
  | 0, _, counts => ([], counts)
  | depth + 1, number, counts =>
    match program.operations[number]? with
    | none => ([], counts)
    | some operation =>
      let callBox (callee : Nat) (counts : ResultCounts) : Box × ResultCounts :=
        let (children, counts) := program.boxesTo depth callee counts
        match program.operations[callee]? with
        | none => (.plain "" [], counts)
        | some called =>
          let box := Box.plain called.name.name (called.figures.touched.map .ofQubit)
          ({ box with children := children }, counts)
      stepBoxes callBox operation.body counts

/-- The diagram of an operation. -/
def diagram (program : Program) (number : Nat) : Diagram :=
  let qubits := (program.operations[number]?.map (·.figures.qubits)).getD 0
  let (boxes, counts) :=
    program.boxesTo program.operations.size number (Array.replicate qubits 0)
  ⟨counts.toList.mapIdx fun qubit results => ⟨qubit, results⟩, boxes⟩

end GateBench.Program
