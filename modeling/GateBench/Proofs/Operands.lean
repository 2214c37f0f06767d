import GateBench.Proofs.Compilation
import GateBench.Simulation.Shots

/-!
Operands of compiled programs.  Resolution fits the qubits of every gate to the gate table, inlining
only collects what resolution left, and the figures of an operation count all qubits it reaches; so
no instruction that is run has too few operands, equal ones, or one beyond its circuit.
-/

namespace GateBench.Program

open GateBench.Syntax

/-- How many qubits a gate acts on. -/
def Gate.arity : Gate → Nat
  | .controlledX | .controlledZ | .swap => 2
  | .doublyControlledX => 3
  | _ => 1

/-- An instruction with distinct qubits, as many as it acts on. -/
def Instruction.Fits : Instruction → Prop
  | .gate kind qubits => qubits.length = kind.arity ∧ qubits.Nodup
  | .measure _ | .reset _ => True

variable {names : List QualifiedName} {scope : Option String} {declared : Declared}
  {routine : Routine} {sources : List Source} {limits : Limits} {program : Program}
  {number : Nat}

/-- The gate table tells how many qubits its gates act on. -/
theorem arity_of_gateRow? {name : String} {row : GateRow} (hrow : gateRow? name = some row)
    (angle : Float) : (row.gate angle).arity = row.qubits := by
  unfold gateRow? at hrow
  split at hrow
  all_goals cases hrow
  all_goals rfl

theorem ResolvesTo.fits {action : Action} {instruction : Instruction}
    (hresolves : ResolvesTo names scope action (.perform instruction)) : instruction.Fits := by
  cases hresolves with
  | gate hrow hparameters hqubits hnodup =>
      exact ⟨hqubits.trans (arity_of_gateRow? hrow _).symm, hnodup⟩
  | measure qubit => trivial
  | reset qubit => trivial

/-- What a resolved routine performs fits. -/
theorem Resolves.fits (hresolves : Resolves names declared routine) :
    ∀ step ∈ routine.body, ∀ instruction, step.action = .perform instruction →
      instruction.Fits := by
  intro step hstep instruction haction
  obtain ⟨statement, -, hresolved, -⟩ := exists_of_forall₂_of_mem hresolves.body hstep
  rw [haction] at hresolved
  exact hresolved.fits

/-- What an operation of a compiled program performs fits. -/
theorem compile_fits (haccepted : compile sources limits = .ok program) :
    ∀ operation ∈ program.operations, ∀ step ∈ operation.body, ∀ instruction,
      step.action = .perform instruction → instruction.Fits := by
  obtain ⟨files, -, hcompiled⟩ := compile_ok_iff_compileFiles.mp haccepted
  obtain ⟨-, hresolved⟩ := resolve_ok_iff.mp (resolve_of_compileFiles hcompiled)
  intro operation hoperation
  have hroutine : operation.toRoutine ∈ program.routines := Array.mem_map_of_mem hoperation
  obtain ⟨declared, -, hresolves⟩ := exists_of_forall₂_of_mem hresolved hroutine.val
  exact hresolves.fits

/-- Every inlined instruction is performed by some operation, and stands where that has it. -/
theorem mem_inlineTo {depth : Nat} {step : FlatStep}
    (hstep : step ∈ program.inlineTo depth number) :
    ∃ operation ∈ program.operations, ∃ line,
      ⟨.perform step.instruction, line⟩ ∈ operation.body ∧
        step.location = ⟨operation.location.source, line⟩ := by
  induction depth generalizing number with
  | zero => nomatch hstep
  | succ depth ih =>
      unfold inlineTo at hstep
      split at hstep
      · nomatch hstep
      · rename_i operation hoperation
        obtain ⟨⟨action, line⟩, hbody, hinlined⟩ := List.mem_flatMap.mp hstep
        cases action with
        | perform instruction =>
            obtain rfl := List.mem_singleton.mp hinlined
            exact ⟨operation, Array.mem_of_getElem? hoperation, line, hbody, rfl⟩
        | call callee => exact ih hinlined

/-- Only the operations of a program inline to anything. -/
theorem lt_size_of_mem_flatten {step : FlatStep} (hstep : step ∈ program.flatten number) :
    number < program.operations.size := by
  unfold flatten inlineTo at hstep
  split at hstep
  · nomatch hstep
  · split at hstep
    · nomatch hstep
    · rename_i operation hoperation
      exact (Array.getElem?_eq_some_iff.mp hoperation).1

/-- Every instruction of a compiled program that is run fits. -/
theorem fits_of_mem_flatten (haccepted : compile sources limits = .ok program) {step : FlatStep}
    (hstep : step ∈ program.flatten number) : step.instruction.Fits := by
  obtain ⟨operation, hoperation, line, hbody, -⟩ := mem_inlineTo hstep
  exact compile_fits haccepted operation hoperation _ hbody _ rfl

end GateBench.Program

namespace GateBench.Simulation

open GateBench.Program

/-- The circuit of an operation has all qubits that its instructions act on. -/
theorem Circuit.lt_qubits {sources : List Source} {limits : Limits} {program : Program}
    {number : Nat} (haccepted : compile sources limits = .ok program) {step : FlatStep}
    (hstep : step ∈ program.flatten number) {qubit : Nat}
    (hqubit : qubit ∈ step.instruction.qubits) :
    qubit < (Circuit.ofProgram program number).qubits := by
  have hoperation := Array.getElem?_eq_getElem (lt_size_of_mem_flatten hstep)
  rw [Circuit.ofProgram, hoperation]
  exact ((compile_measured haccepted).qubits_isLeast hoperation).1 step hstep qubit hqubit

end GateBench.Simulation
