import GateBench.Proofs.BasisStates
import GateBench.Proofs.Operands

/-!
Runs of classical programs.  A program whose gates only flip and exchange bits is run on a register
of bits; the simulated state stays the basis state of that register, so the label of a shot is the
one that the register has, whatever is drawn.
-/

namespace GateBench.Simulation

open GateBench.Program

/-- Whether an instruction turns bits into bits. -/
def isClassical : Instruction → Bool
  | .gate .x _ | .gate .controlledX _ | .gate .swap _ | .gate .doublyControlledX _ => true
  | .gate _ _ => false
  | .measure _ | .reset _ => true

/-- Bits, and the label of those that were read. -/
structure BitRegister where
  bits : Nat → Bool
  label : String

namespace BitRegister

/-- The register in which every bit is clear and none was read. -/
def start : BitRegister :=
  ⟨fun _ => false, ""⟩

/-- Flip a bit if all controls are set. -/
def flipIf (register : BitRegister) (controls : List Nat) (target : Nat) : BitRegister :=
  if controls.all register.bits then
    { register with bits := Function.update register.bits target (!register.bits target) }
  else register

theorem bits_flipIf (register : BitRegister) (controls : List Nat) (target qubit : Nat) :
    (register.flipIf controls target).bits qubit =
      if target = qubit ∧ controls.all register.bits then !register.bits qubit
      else register.bits qubit := by
  unfold flipIf
  by_cases hset : controls.all register.bits = true
  · rw [if_pos hset]
    by_cases hqubit : target = qubit
    · subst hqubit
      simp [hset]
    · simp [hqubit, Function.update_of_ne (Ne.symm hqubit)]
  · simp [hset]

theorem label_flipIf (register : BitRegister) (controls : List Nat) (target : Nat) :
    (register.flipIf controls target).label = register.label := by
  unfold flipIf
  split_ifs <;> rfl

/-- Perform an instruction on bits. -/
def perform (register : BitRegister) : Instruction → BitRegister
  | .gate .x [target] => register.flipIf [] target
  | .gate .controlledX [control, target] => register.flipIf [control] target
  | .gate .doublyControlledX [first, second, target] => register.flipIf [first, second] target
  | .gate .swap [first, second] =>
    { register with bits := fun qubit => register.bits (Equiv.swap first second qubit) }
  | .gate _ _ => register
  | .measure qubit =>
    { register with label := register.label.push (if register.bits qubit then '1' else '0') }
  | .reset qubit => { register with bits := Function.update register.bits qubit false }

/-- Perform instructions in order. -/
def run (instructions : List Instruction) : BitRegister :=
  instructions.foldl perform start

/-- The label of a register; it is a pair of parentheses if nothing was read. -/
def outcome (register : BitRegister) : String :=
  if register.label.isEmpty then "()" else register.label

end BitRegister

variable {σ α : Type} [Scalar α] {draw : Draw σ α} {shot : ShotState σ α} {register : BitRegister}
  {qubits : Nat}

/-- A shot is where a register is: its state is the basis state of the bits, and what it has read is
in the label. -/
structure Spells (qubits : Nat) (shot : ShotState σ α) (register : BitRegister) : Prop where
  state : ∃ index, shot.state.IsBasis qubits index ∧
    ∀ qubit, index.testBit qubit = register.bits qubit
  label : register.label.toList = shot.bits.reverse.map fun bit => if bit then '1' else '0'

namespace Spells

theorem start (qubits : Nat) (source : σ) :
    Spells qubits (⟨.initial qubits, [], source⟩ : ShotState σ α) .start where
  state := ⟨0, Statevector.isBasis_initial qubits, fun qubit => Nat.zero_testBit qubit⟩
  label := rfl

/-- A flip under controls does to the state what it does to the register. -/
theorem controlledFlip (hspells : Spells qubits shot register) {controls : List Nat} {target : Nat}
    (htarget : target < qubits) (hcontrols : target ∉ controls) :
    Spells qubits { shot with state := shot.state.controlledFlip controls target }
      (register.flipIf controls target) where
  state := by
    obtain ⟨index, hbasis, hbits⟩ := hspells.state
    refine ⟨_, hbasis.controlledFlip htarget hcontrols, ?_⟩
    intro qubit
    have hall : controls.all index.testBit = controls.all register.bits := by
      rw [funext hbits]
    rw [Statevector.testBit_flipIf, BitRegister.bits_flipIf, hall, hbits]
  label := by
    rw [BitRegister.label_flipIf]
    exact hspells.label

theorem swapQubits (hspells : Spells qubits shot register) {first second : Nat}
    (hfirst : first < qubits) (hsecond : second < qubits) (hdistinct : first ≠ second) :
    Spells qubits { shot with state := shot.state.swapQubits first second }
      { register with bits := fun qubit => register.bits (Equiv.swap first second qubit) } where
  state := by
    obtain ⟨index, hbasis, hbits⟩ := hspells.state
    refine ⟨_, hbasis.swapQubits hfirst hsecond hdistinct, ?_⟩
    intro qubit
    rw [Statevector.testBit_exchangeBits hdistinct, hbits]
  label := hspells.label

theorem measure (hspells : Spells qubits shot register) (hexact : ExactOnBits α)
    (hdraw : ∀ source, IsFraction (draw source).1) (qubit : Nat) :
    Spells qubits (shot.perform draw (.measure qubit)) (register.perform (.measure qubit)) := by
  obtain ⟨index, hbasis, hbits⟩ := hspells.state
  obtain ⟨hreads, hmeasured⟩ := hbasis.measure hexact qubit (hdraw shot.source)
  refine ⟨⟨index, hmeasured, hbits⟩, ?_⟩
  change (register.label.push _).toList =
    ((shot.state.measure qubit (draw shot.source).1).1 :: shot.bits).reverse.map _
  rw [String.toList_push, hspells.label, hreads, hbits, List.reverse_cons, List.map_append]
  rfl

theorem reset (hspells : Spells qubits shot register) (hexact : ExactOnBits α)
    (hdraw : ∀ source, IsFraction (draw source).1) {qubit : Nat} (hqubit : qubit < qubits) :
    Spells qubits (shot.perform draw (.reset qubit)) (register.perform (.reset qubit)) := by
  obtain ⟨index, hbasis, hbits⟩ := hspells.state
  refine ⟨⟨_, hbasis.reset hexact hqubit (hdraw shot.source), ?_⟩, hspells.label⟩
  intro other
  rw [Statevector.testBit_withoutBit, hbits]
  by_cases hother : qubit = other
  · subst hother
    simp [BitRegister.perform]
  · simp [BitRegister.perform, hother, Function.update_of_ne (Ne.symm hother)]

/-- One instruction does to a shot what it does to the register. -/
theorem perform (hspells : Spells qubits shot register) (hexact : ExactOnBits α)
    (hdraw : ∀ source, IsFraction (draw source).1) {instruction : Instruction}
    (hclassical : isClassical instruction = true) (hfits : instruction.Fits)
    (hqubits : ∀ qubit ∈ instruction.qubits, qubit < qubits) :
    Spells qubits (shot.perform draw instruction) (register.perform instruction) := by
  cases instruction with
  | measure qubit => exact hspells.measure hexact hdraw qubit
  | reset qubit => exact hspells.reset hexact hdraw (hqubits qubit (List.mem_singleton_self qubit))
  | gate kind operands =>
      obtain ⟨hlength, hnodup⟩ := hfits
      cases kind with
      | x =>
          obtain ⟨target, rfl⟩ := List.length_eq_one_iff.mp hlength
          exact hspells.controlledFlip (hqubits target (by simp [Instruction.qubits]))
            List.not_mem_nil
      | controlledX =>
          obtain ⟨control, target, rfl⟩ := List.length_eq_two.mp hlength
          apply hspells.controlledFlip (hqubits target (by simp [Instruction.qubits]))
          simpa [eq_comm] using hnodup
      | doublyControlledX =>
          obtain ⟨first, second, target, rfl⟩ := List.length_eq_three.mp hlength
          apply hspells.controlledFlip (hqubits target (by simp [Instruction.qubits]))
          have hdistinct : first ≠ target ∧ second ≠ target := by
            grind
          simp [hdistinct.1.symm, hdistinct.2.symm]
      | swap =>
          obtain ⟨first, second, rfl⟩ := List.length_eq_two.mp hlength
          apply hspells.swapQubits (hqubits first (by simp [Instruction.qubits]))
            (hqubits second (by simp [Instruction.qubits]))
          simpa using hnodup
      | h | y | z | s | sInverse | t | tInverse | controlledZ => cases hclassical
      | rotateX | rotateY | rotateZ | phase => cases hclassical

/-- Instructions in order do to a shot what they do to the register. -/
theorem performAll (hexact : ExactOnBits α) (hdraw : ∀ source, IsFraction (draw source).1)
    {instructions : List Instruction}
    (hclassical : ∀ instruction ∈ instructions, isClassical instruction = true ∧
      instruction.Fits ∧ ∀ qubit ∈ instruction.qubits, qubit < qubits)
    (hspells : Spells qubits shot register) :
    Spells qubits (instructions.foldl (ShotState.perform draw) shot)
      (instructions.foldl BitRegister.perform register) := by
  induction instructions generalizing shot register with
  | nil => exact hspells
  | cons first others ih =>
      obtain ⟨⟨hfirst, hfits, hqubits⟩, hothers⟩ := List.forall_mem_cons.mp hclassical
      exact ih hothers (hspells.perform hexact hdraw hfirst hfits hqubits)

/-- A shot has the label of its register. -/
theorem labelOf_eq (hspells : Spells qubits shot register) :
    labelOf shot.bits.reverse = register.outcome := by
  have hlabel : register.label = String.ofList
      (shot.bits.reverse.map fun bit => if bit then '1' else '0') := by
    rw [← hspells.label, String.ofList_toList]
  rw [labelOf, BitRegister.outcome, hlabel]
  cases shot.bits.reverse with
  | nil => rfl
  | cons bit others => simp

end Spells

/-- Binary floating point is exact on zero and one. -/
theorem exactOnBits_float : ExactOnBits Float := by
  constructor <;> decide +kernel

/-- Draws that alternate between zero and one half. -/
def alternating : Draw Bool Float :=
  fun high => (if high then 0.5 else 0.0, !high)

theorem isFraction_alternating (high : Bool) : IsFraction (alternating high).1 := by
  cases high <;> constructor <;> decide +kernel

/-- An operation that flips, copies, exchanges, reads and clears bits. -/
def bitOperation : Source :=
  ⟨"bits.qb", "operation A { x 0; cx 0, 1; swap 1, 2; measure 2; reset 0; measure 0; }"⟩

/-- What it parses into. -/
def bitOperationFile : Syntax.SourceFile :=
  ⟨"bits.qb", none, [⟨"A", false, 1, [
    ⟨.gate ⟨"x", [], [0]⟩, 1⟩, ⟨.gate ⟨"cx", [], [0, 1]⟩, 1⟩, ⟨.gate ⟨"swap", [], [1, 2]⟩, 1⟩,
    ⟨.measure 2, 1⟩, ⟨.reset 0, 1⟩, ⟨.measure 0, 1⟩]⟩]⟩

/-- What it compiles to. -/
def bitProgram : Program :=
  ⟨#[⟨⟨⟨none, "A"⟩, false, ⟨"bits.qb", 1⟩, [
    ⟨.perform (.gate .x [0]), 1⟩, ⟨.perform (.gate .controlledX [0, 1]), 1⟩,
    ⟨.perform (.gate .swap [1, 2]), 1⟩, ⟨.perform (.measure 2), 1⟩, ⟨.perform (.reset 0), 1⟩,
    ⟨.perform (.measure 0), 1⟩]⟩, ⟨[0, 1, 2], 6, 0⟩⟩]⟩

theorem resolve_bitOperationFile :
    resolve [bitOperationFile] = .ok (bitProgram.operations.toList.map (·.toRoutine)) := by
  decide +kernel

theorem compile_bitOperation : compile [bitOperation] {} = .ok bitProgram := by
  have hparse : parse bitOperation = .ok bitOperationFile := by
    decide +kernel
  have hfile : compileFiles [bitOperationFile] {} = .ok bitProgram := by
    rw [compileFiles, resolve_bitOperationFile]
    cbv
  exact compile_ok_iff_compileFiles.mpr ⟨_, .cons hparse .nil, hfile⟩

end GateBench.Simulation
