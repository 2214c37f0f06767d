import GateBench.Program.Basic

/-!
Inlining: the instructions that an operation performs, through all its calls, in order.
-/

namespace GateBench.Program

/-- An instruction and the line it is written on. -/
structure FlatStep where
  instruction : Instruction
  location : Location
deriving DecidableEq

/-- Inline an operation, following calls at most `depth` deep. -/
def inlineTo (program : Program) : Nat → Nat → List FlatStep
  | 0, _ => []
  | depth + 1, number =>
    match program.operations[number]? with
    | none => []
    | some operation =>
      operation.body.flatMap fun step =>
        match step.action with
        | .perform instruction => [⟨instruction, ⟨operation.location.source, step.line⟩⟩]
        | .call callee => program.inlineTo depth callee

/-- The instructions of an operation with every call inlined.  No chain of calls in a compiled
program meets an operation twice, so the number of operations bounds its depth. -/
def flatten (program : Program) (number : Nat) : List FlatStep :=
  program.inlineTo program.operations.size number

end GateBench.Program
