import GateBench.Message.Response
import GateBench.Program.Gate
import GateBench.Source

/-!
Compiled programs.  Operations are numbered in the order of their declarations; a call refers to
the number of its callee.  Every operation carries figures about what it reaches through calls.
-/

namespace GateBench

namespace Program

/-- What acts on qubits. -/
inductive Instruction where
  | gate (gate : Gate) (qubits : List Nat)
  | measure (qubit : Nat)
  | reset (qubit : Nat)
deriving DecidableEq

/-- The qubits that an instruction acts on. -/
def Instruction.qubits : Instruction → List Nat
  | .gate _ qubits => qubits
  | .measure qubit | .reset qubit => [qubit]

/-- What one statement does: act on qubits, or call the operation of a number. -/
inductive StepAction where
  | perform (instruction : Instruction)
  | call (callee : Nat)
deriving DecidableEq

/-- The qubits that a step acts on itself; none for a call. -/
def StepAction.qubits : StepAction → List Nat
  | .perform instruction => instruction.qubits
  | .call _ => []

/-- The operation that a step calls. -/
def StepAction.callee? : StepAction → Option Nat
  | .perform _ => none
  | .call callee => some callee

/-- A step and the line of its statement. -/
structure Step where
  action : StepAction
  line : Nat
deriving DecidableEq

/-- An operation whose gates and calls are resolved. -/
structure Routine where
  name : QualifiedName
  isEntry : Bool
  location : Location
  body : List Step
deriving DecidableEq

/-- The operations that a routine calls, in the order of its calls. -/
def Routine.callees (routine : Routine) : List Nat :=
  routine.body.filterMap (·.action.callee?)

/-- What an operation reaches through calls: its qubits in ascending order, its size when every call
is inlined (a call counting one itself, and sizes ending at `2 ^ 64 - 1`), and the longest chain of
calls below it. -/
structure Figures where
  touched : List Nat
  steps : Nat
  callDepth : Nat
deriving DecidableEq, Repr

/-- The number of qubits up to the highest one touched. -/
def Figures.qubits (figures : Figures) : Nat :=
  (figures.touched.getLast?.map (· + 1)).getD 0

/-- An operation of a compiled program. -/
structure Operation extends Routine where
  figures : Figures
deriving DecidableEq

/-- The sizes a program may have: qubits of an operation, steps after inlining, nested calls. -/
structure Limits where
  maxQubits : Nat := 20
  maxSteps : Nat := 100000
  maxCallDepth : Nat := 64
deriving DecidableEq, Repr

/-- What is shown of an operation without its body. -/
def Operation.summary (operation : Operation) : Message.OperationSummary :=
  ⟨operation.name, operation.isEntry, operation.figures.qubits⟩

end Program

/-- A compiled program. -/
structure Program where
  operations : Array Program.Operation
deriving DecidableEq

/-- The summaries of all operations in order. -/
def Program.summaries (program : Program) : List Message.OperationSummary :=
  program.operations.toList.map (·.summary)

end GateBench
