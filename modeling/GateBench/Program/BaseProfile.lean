import GateBench.Program.Error
import GateBench.Program.Flatten

/-!
The check against a profile.  It follows the inlined instructions, so what is wrong in a called
operation is reported on that operation's line, and once however often it is called.
-/

namespace GateBench.Program

/-- What a base target refuses in one instruction, when the qubits of `measured` have been
measured. -/
def baseViolation? (measured : List Nat) : Instruction → Option BaseViolation
  | .reset qubit => some (.reset qubit)
  | .measure qubit => if qubit ∈ measured then some (.measuredAgain qubit) else none
  | .gate _ qubits => (qubits.find? (· ∈ measured)).map .gateAfterMeasurement

/-- The qubits measured after one more instruction. -/
def measuredAfter (measured : List Nat) : Instruction → List Nat
  | .measure qubit => if qubit ∈ measured then measured else qubit :: measured
  | _ => measured

/-- Collect violations along the instructions, each once; `found` holds them latest first. -/
def collectViolations (measured : List Nat) (found : List ProgramError) :
    List FlatStep → List ProgramError
  | [] => found.reverse
  | step :: others =>
    let found := match baseViolation? measured step.instruction with
      | none => found
      | some violation =>
        let error := ProgramError.located step.location (.profileViolation violation)
        if error ∈ found then found else error :: found
    collectViolations (measuredAfter measured step.instruction) found others

/-- What a profile refuses in an operation. -/
def violations (program : Program) (number : Nat) :
    Message.Profile → List ProgramError
  | .unrestricted => []
  | .base => collectViolations [] [] (program.flatten number)

end GateBench.Program
