import GateBench.Message.Response

/-!
Lenses: the commands that are offered for each operation of a document.  An entry point can be run,
sampled and drawn; another operation can be drawn by its name, unless it touches no qubit.
-/

namespace GateBench.Dispatch

open GateBench.Message

/-- A command that is offered. -/
inductive LensCommand where
  | run
  | histogram
  | circuit
  | operationCircuit (operation : QualifiedName)
deriving DecidableEq, Repr

/-- The title of a command. -/
def LensCommand.title : LensCommand → String
  | .run => "Run"
  | .histogram => "Histogram"
  | .circuit | .operationCircuit _ => "Circuit"

/-- The operation that a command selects by name. -/
def LensCommand.selects? : LensCommand → Option QualifiedName
  | .operationCircuit operation => some operation
  | _ => none

/-- A command attached to an operation. -/
structure Lens where
  operation : String
  command : LensCommand
deriving DecidableEq, Repr

/-- A lens in words. -/
def Lens.text (lens : Lens) : String :=
  lens.operation ++ " [" ++ lens.command.title ++ "]"

/-- The commands offered for an operation. -/
def commandsFor (operation : OperationSummary) : List LensCommand :=
  if operation.isEntry then [.run, .histogram, .circuit]
  else if 0 < operation.qubits then [.operationCircuit operation.name]
  else []

/-- The lenses of operations, in their order. -/
def lensesOf (operations : List OperationSummary) : List Lens :=
  operations.flatMap fun operation =>
    (commandsFor operation).map fun command => ⟨operation.name.text, command⟩

end GateBench.Dispatch
