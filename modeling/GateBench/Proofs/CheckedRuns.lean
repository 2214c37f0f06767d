import GateBench.Proofs.CheckedPasses
import GateBench.Proofs.ClassicalRun

/-!
Shots in which everything is looked up.  A shot of a compiled operation finds every operation that
is called, every operand of its gates and every amplitude, whatever is drawn.
-/

namespace GateBench.Simulation

open GateBench.Program

variable {σ α : Type} [Scalar α]

/-- Perform one instruction; its operands and amplitudes are looked up. -/
def ShotState.perform? (draw : Draw σ α) (shot : ShotState σ α) :
    Instruction → Option (ShotState σ α)
  | .gate gate qubits => do return { shot with state := ← shot.state.applyGate? gate qubits }
  | .measure qubit => do
    let (drawn, source) := draw shot.source
    let (bit, state) ← shot.state.measure? qubit drawn
    return ⟨state, bit :: shot.bits, source⟩
  | .reset qubit => do
    let (drawn, source) := draw shot.source
    return { shot with state := ← shot.state.reset? qubit drawn, source }

/-- Run one shot of an operation from the state of zeros. -/
def shot? (program : Program) (number : Nat) (draw : Draw σ α) (source : σ) :
    Option (String × σ) := do
  let steps ← program.flatten? number
  let operation ← program.operations[number]?
  let state ← Statevector.initial? operation.figures.qubits
  let shot ← steps.foldlM
    (fun (shot : ShotState σ α) step => shot.perform? draw step.instruction) ⟨state, [], source⟩
  return (labelOf shot.bits.reverse, shot.source)

variable {draw : Draw σ α} {shot : ShotState σ α} {qubits : Nat}

/-- One instruction within the qubits of a state finds all that it looks up, and leaves a state of
as many qubits. -/
theorem ShotState.perform?_eq (hsize : shot.state.amplitudes.size = 1 <<< qubits)
    (hword : qubits < 64) {instruction : Instruction} (hfits : instruction.FitsIn qubits) :
    shot.perform? draw instruction = some (shot.perform draw instruction) ∧
      (shot.perform draw instruction).state.amplitudes.size = 1 <<< qubits := by
  cases instruction with
  | gate gate operands =>
      have happly := Statevector.applyGate?_eq hsize hword hfits.fits hfits.lt
      exact ⟨by simp [perform?, perform, happly], Statevector.size_apply.trans hsize⟩
  | measure qubit =>
      have hqubit := hfits.lt qubit (List.mem_singleton_self qubit)
      have hmeasure (drawn : α) :
          shot.state.measure? qubit drawn = some (shot.state.measure qubit drawn) :=
        Statevector.measure?_eq hword hqubit drawn
      exact ⟨by simp [perform?, perform, hmeasure], Statevector.size_measure.trans hsize⟩
  | reset qubit =>
      have hqubit := hfits.lt qubit (List.mem_singleton_self qubit)
      have hreset := Statevector.reset?_eq hsize hword hqubit
      exact ⟨by simp [perform?, perform, hreset], Statevector.size_reset.trans hsize⟩

variable {sources : List Source} {limits : Limits} {program : Program} {number : Nat}
  {operation : Operation}

/-- A shot of a compiled operation finds all that it looks up. -/
theorem shot?_eq (haccepted : compile sources limits = .ok program)
    (hlimit : limits.maxQubits < 64) (hoperation : program.operations[number]? = some operation)
    (draw : Draw σ α) (source : σ) :
    shot? program number draw source =
      some ((Circuit.ofProgram program number).shot draw source) := by
  have hword : operation.figures.qubits < 64 :=
    Nat.lt_of_le_of_lt (qubits_le_maxQubits haccepted hoperation) hlimit
  have hfits := fitsIn_of_mem_flatten haccepted hoperation
  have hflatten := flatten?_eq (compile_measured haccepted)
    (Array.getElem?_eq_some_iff.mp hoperation).1
  let start : ShotState σ α := ⟨.initial operation.figures.qubits, [], source⟩
  have hsteps : (program.flatten number).foldlM
      (fun shot step => shot.perform? draw step.instruction) start =
        some ((program.flatten number).foldl
          (fun shot step => shot.perform draw step.instruction) start) := by
    refine foldlM_eq_some
      (fun shot => shot.state.amplitudes.size = 1 <<< operation.figures.qubits) ?_ ?_
    · intro shot hsize step hstep
      exact ShotState.perform?_eq hsize hword (hfits step hstep)
    · exact (Statevector.isBasis_initial operation.figures.qubits).size
  simp only [shot?, hflatten, hoperation, Statevector.initial?_eq hword, Option.bind_eq_bind,
    Option.bind_some]
  rw [hsteps]
  simp only [Circuit.shot, Circuit.ofProgram, hoperation, List.foldl_map, Option.map_some,
    Option.getD_some]
  rfl

/-- No lookup in a compiled program of at most 63 qubits is ever out of range.  For every operation,
the check against the base profile, the drawing of its diagram and every shot of it, whatever is
drawn, find every operation that is called, every mark, count and amplitude, and every operand of a
gate, and have the results that they have in the running program. -/
theorem lookups_succeed (haccepted : compile sources limits = .ok program)
    (hlimit : limits.maxQubits < 64) (hnumber : number < program.operations.size) :
    program.baseViolations? number = some (program.violations number .base) ∧
      program.diagram? number = some (program.diagram number) ∧
      ∀ (σ α : Type) [Scalar α] (draw : Draw σ α) (source : σ),
        shot? program number draw source =
          some ((Circuit.ofProgram program number).shot draw source) := by
  have hoperation := Array.getElem?_eq_getElem hnumber
  exact ⟨baseViolations?_eq haccepted hoperation, diagram?_eq haccepted hoperation,
    fun _ _ _ draw source => shot?_eq haccepted hlimit hoperation draw source⟩

theorem lookups_succeed_bitOperation :
    compile [bitOperation] {} = .ok bitProgram ∧ ({} : Limits).maxQubits < 64 ∧
      0 < bitProgram.operations.size ∧
      bitProgram.diagram? 0 = some (bitProgram.diagram 0) ∧
      ∀ high, shot? bitProgram 0 alternating high =
        some ((Circuit.ofProgram bitProgram 0).shot alternating high) := by
  obtain ⟨-, hdiagram, hshot⟩ := lookups_succeed compile_bitOperation (by decide)
    (show 0 < bitProgram.operations.size by decide)
  exact ⟨compile_bitOperation, by decide, by decide, hdiagram, hshot Bool Float alternating⟩

end GateBench.Simulation
