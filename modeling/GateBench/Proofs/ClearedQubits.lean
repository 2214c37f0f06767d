import GateBench.Proofs.ClassicalRun
import GateBench.Proofs.UnsignedDraws

/-!
Cleared qubits.  A qubit is cleared when every amplitude is zero at which its bit is set.  A reset and
a measurement that reads zero leave it so, whatever the amplitudes were, and measurements, resets
and the gates that only flip or exchange other qubits keep it so; a measurement of a cleared qubit
reads zero.
-/

namespace GateBench.Simulation

open GateBench.Program

/-- Arithmetic in which zeros stay zeros. -/
structure KeepsZero (α : Type) [Scalar α] : Prop where
  zero_add_zero : (Scalar.zero : α) + Scalar.zero = Scalar.zero
  zero_mul_zero : (Scalar.zero : α) * Scalar.zero = Scalar.zero
  zero_div : ∀ divisor : α, Scalar.less Scalar.zero divisor = true →
    Scalar.zero / divisor = Scalar.zero

variable {α : Type} [Scalar α]

namespace Statevector

variable {state : Statevector α} {qubits qubit : Nat}

/-- Every amplitude is zero where the bit of the qubit is set. -/
def IsCleared (state : Statevector α) (qubit : Nat) : Prop :=
  ∀ index, index.testBit qubit = true → state.amplitude index = Complex.zero

theorem amplitude_of_size_le {index : Nat} (hindex : state.amplitudes.size ≤ index) :
    state.amplitude index = Complex.zero := by
  rw [amplitude, Array.getElem?_eq_none hindex, Option.getD_none]

theorem amplitude_rebuild_eq_zero {amplitude : Nat → Complex α} {index : Nat}
    (hamplitude : amplitude index = Complex.zero) :
    (state.rebuild amplitude).amplitude index = Complex.zero := by
  by_cases hindex : index < state.amplitudes.size
  · rw [amplitude_rebuild hindex, hamplitude]
  · apply amplitude_of_size_le
    rw [size_rebuild]
    exact Nat.le_of_not_lt hindex

/-! ### Clearing a qubit -/

/-- A measurement leaves nothing where the bit of its qubit is not the one that it read. -/
theorem amplitude_measure_of_ne {drawn : α} {index : Nat}
    (hother : index.testBit qubit ≠ (state.measure qubit drawn).1) :
    (state.measure qubit drawn).2.amplitude index = Complex.zero :=
  amplitude_rebuild_eq_zero (if_neg hother)

/-- A measurement that reads zero clears its qubit. -/
theorem isCleared_measure {drawn : α} (hreads : (state.measure qubit drawn).1 = false) :
    (state.measure qubit drawn).2.IsCleared qubit := by
  intro index hset
  apply amplitude_measure_of_ne
  rw [hreads, hset]
  exact Bool.false_ne_true.symm

/-- A reset clears its qubit, whatever the measurement in it reads. -/
theorem isCleared_reset (hsize : state.amplitudes.size = 1 <<< qubits) (hqubit : qubit < qubits)
    (drawn : α) : (state.reset qubit drawn).IsCleared qubit := by
  rw [reset]
  dsimp only
  split_ifs with hreads
  · have hmeasured : (state.measure qubit drawn).2.amplitudes.size = 1 <<< qubits :=
      size_rebuild.trans hsize
    intro index hset
    by_cases hindex : index < 1 <<< qubits
    -- the flip brings here what the measurement left where the bit is clear, which is nothing
    · rw [amplitude_controlledFlip hmeasured hqubit List.not_mem_nil hindex]
      apply amplitude_measure_of_ne
      rw [hreads, testBit_flipIf, if_pos ⟨rfl, rfl⟩, hset]
      exact Bool.false_ne_true
    · apply amplitude_of_size_le
      rw [size_controlledFlip, hmeasured]
      exact Nat.le_of_not_lt hindex
  · exact isCleared_measure (Bool.eq_false_of_not_eq_true hreads)

/-! ### What keeps a qubit cleared -/

/-- An exchange of two amplitudes whose indices agree in the bit of a qubit keeps it cleared. -/
theorem isCleared_swapIfInBounds {values : Array (Complex α)} {first second : Nat}
    (hcleared : (⟨values⟩ : Statevector α).IsCleared qubit)
    (hsame : second.testBit qubit = first.testBit qubit) :
    (⟨values.swapIfInBounds first second⟩ : Statevector α).IsCleared qubit := by
  by_cases hfirst : first < values.size
  · by_cases hsecond : second < values.size
    · intro index hset
      rw [amplitude, getElem?_swapIfInBounds hfirst hsecond]
      split_ifs with hindex hindex
      · exact hcleared first (by rw [← hsame, hindex, hset])
      · exact hcleared second (by rw [hsame, hindex, hset])
      · exact hcleared index hset
    · rw [Array.swapIfInBounds_def, dif_pos hfirst, dif_neg hsecond]
      exact hcleared
  · rw [Array.swapIfInBounds_def, dif_neg hfirst]
    exact hcleared

namespace IsCleared

variable (hcleared : state.IsCleared qubit)
include hcleared

/-- Exchanges of amplitudes whose indices agree in the bit of a qubit keep it cleared. -/
theorem exchangePairs {leads : Nat → Bool} {partner : Nat → Nat}
    (hpartner : ∀ index, leads index = true →
      (partner index).testBit qubit = index.testBit qubit) :
    (state.exchangePairs leads partner).IsCleared qubit := by
  have hpass (count : Nat) :
      (⟨passTo leads partner state.amplitudes count⟩ : Statevector α).IsCleared qubit := by
    induction count with
    | zero => exact hcleared
    | succ count ih =>
        rw [passTo_succ]
        split_ifs with hleads
        · exact isCleared_swapIfInBounds ih (hpartner count hleads)
        · exact ih
  exact hpass state.amplitudes.size

theorem controlledFlip {controls : List Nat} {target : Nat} (htarget : target ≠ qubit) :
    (state.controlledFlip controls target).IsCleared qubit := by
  apply hcleared.exchangePairs
  intro index _
  rw [testBit_withBit, decide_eq_false htarget, Bool.or_false]

theorem swapQubits {first second : Nat} (hfirst : first ≠ qubit) (hsecond : second ≠ qubit) :
    (state.swapQubits first second).IsCleared qubit := by
  apply hcleared.exchangePairs
  intro index _
  rw [testBit_withBit, decide_eq_false hsecond, Bool.or_false, testBit_flip,
    decide_eq_false hfirst, Bool.xor_false]

variable (hzero : KeepsZero α)
include hzero

theorem probabilityOne : state.probabilityOne qubit = Scalar.zero := by
  apply List.foldl_fixed'
  intro index
  split_ifs with hset
  · rw [hcleared index hset, Complex.normSquared_zero hzero.zero_mul_zero hzero.zero_add_zero,
      hzero.zero_add_zero]
  · rfl

/-- A measurement of a cleared qubit reads zero, unless a number below zero is drawn. -/
theorem reads_zero {drawn : α} (hdrawn : Scalar.less drawn Scalar.zero = false) :
    (state.measure qubit drawn).1 = false := by
  change Scalar.less drawn (state.probabilityOne qubit) = false
  rw [hcleared.probabilityOne hzero, hdrawn]

theorem collapse (other : Nat) (outcome : Bool) (probability : α) :
    (state.collapse other outcome probability).IsCleared qubit := by
  intro index hset
  apply amplitude_rebuild_eq_zero
  rw [hcleared index hset]
  split_ifs with hkept hpositive
  · exact Complex.shrink_zero (hzero.zero_div _ hpositive)
  · rfl
  · rfl

theorem measure (other : Nat) (drawn : α) : (state.measure other drawn).2.IsCleared qubit :=
  hcleared.collapse hzero other _ _

theorem reset (other : Nat) {drawn : α} (hdrawn : Scalar.less drawn Scalar.zero = false) :
    (state.reset other drawn).IsCleared qubit := by
  have hmeasured := hcleared.measure hzero other drawn
  rw [Statevector.reset]
  dsimp only
  split_ifs with hreads
  · apply hmeasured.controlledFlip
    rintro rfl
    rw [hcleared.reads_zero hzero hdrawn] at hreads
    exact Bool.false_ne_true hreads
  · exact hmeasured

omit hzero in
/-- Gates that only flip and exchange other qubits keep a qubit cleared. -/
theorem apply {kind : Gate} {operands : List Nat} (hspared : qubit ∉ operands)
    (hclassical : isClassical (.gate kind operands) = true) :
    (state.apply kind operands).IsCleared qubit := by
  have hother : ∀ operand ∈ operands, operand ≠ qubit := by
    rintro operand hoperand rfl
    exact hspared hoperand
  fun_cases Statevector.apply state kind operands with
  | case2 target => exact hcleared.controlledFlip (hother target (by simp))
  | case13 control target => exact hcleared.controlledFlip (hother target (by simp))
  | case15 first second =>
      exact hcleared.swapQubits (hother first (by simp)) (hother second (by simp))
  | case16 first second target => exact hcleared.controlledFlip (hother target (by simp))
  | case17 => exact hcleared
  | case1 | case3 | case4 | case5 | case6 | case7 | case8 | case9 | case10 | case11 | case12
  | case14 => cases hclassical

end IsCleared

end Statevector

/-- An instruction that measures or resets any qubit, or that only flips and exchanges others than
this one. -/
def Spares (qubit : Nat) : Instruction → Prop
  | .measure _ | .reset _ => True
  | .gate kind operands => isClassical (.gate kind operands) = true ∧ qubit ∉ operands

instance (qubit : Nat) : DecidablePred (Spares qubit)
  | .measure _ | .reset _ => inferInstanceAs (Decidable True)
  | .gate kind operands =>
    inferInstanceAs (Decidable (isClassical (.gate kind operands) = true ∧ qubit ∉ operands))

variable {σ : Type} {draw : Draw σ α} {shot : ShotState σ α} {qubits qubit : Nat}

/-- An instruction that spares a cleared qubit keeps it cleared. -/
theorem isCleared_perform (hzero : KeepsZero α)
    (hdraw : ∀ source, Scalar.less (draw source).1 Scalar.zero = false)
    (hcleared : shot.state.IsCleared qubit) {instruction : Instruction}
    (hspares : Spares qubit instruction) :
    (shot.perform draw instruction).state.IsCleared qubit := by
  cases instruction with
  | gate kind operands => exact hcleared.apply hspares.2 hspares.1
  | measure other => exact hcleared.measure hzero other _
  | reset other => exact hcleared.reset hzero other (hdraw shot.source)

theorem isCleared_foldl_perform (hzero : KeepsZero α)
    (hdraw : ∀ source, Scalar.less (draw source).1 Scalar.zero = false)
    (hcleared : shot.state.IsCleared qubit) {later : List Instruction}
    (hlater : ∀ instruction ∈ later, Spares qubit instruction) :
    (later.foldl (ShotState.perform draw) shot).state.IsCleared qubit := by
  induction later generalizing shot with
  | nil => exact hcleared
  | cons first others ih =>
      obtain ⟨hfirst, hothers⟩ := List.forall_mem_cons.mp hlater
      exact ih (isCleared_perform hzero hdraw hcleared hfirst) hothers

/-- An instruction that clears a qubit in a shot: a reset, or a measurement that reads zero. -/
def Clears (draw : Draw σ α) (shot : ShotState σ α) (qubit : Nat) (instruction : Instruction) :
    Prop :=
  instruction = .reset qubit ∨
    instruction = .measure qubit ∧ (shot.perform draw instruction).bits = false :: shot.bits

theorem Clears.isCleared {instruction : Instruction}
    (hclears : Clears draw shot qubit instruction)
    (hsize : shot.state.amplitudes.size = 1 <<< qubits) (hqubit : qubit < qubits) :
    (shot.perform draw instruction).state.IsCleared qubit := by
  rcases hclears with rfl | ⟨rfl, hreads⟩
  · exact Statevector.isCleared_reset hsize hqubit _
  · exact Statevector.isCleared_measure (List.cons.inj hreads).1

/-- A cleared qubit stays cleared.  Whatever the amplitudes of a state are, once a qubit was reset or
was read as zero, every measurement of it reads zero, as long as there are only measurements, resets,
and flips and exchanges of other qubits. -/
theorem cleared_reads_zero (hzero : KeepsZero α)
    (hdraw : ∀ source, Scalar.less (draw source).1 Scalar.zero = false)
    (hsize : shot.state.amplitudes.size = 1 <<< qubits) (hqubit : qubit < qubits)
    {first : Instruction} (hfirst : Clears draw shot qubit first) {later : List Instruction}
    (hlater : ∀ instruction ∈ later, Spares qubit instruction) :
    let reached := (first :: later).foldl (ShotState.perform draw) shot
    (reached.perform draw (.measure qubit)).bits = false :: reached.bits := by
  intro reached
  have hcleared : reached.state.IsCleared qubit :=
    isCleared_foldl_perform hzero hdraw (hfirst.isCleared hsize hqubit) hlater
  exact congrArg (· :: reached.bits) (hcleared.reads_zero hzero (hdraw reached.source))

/-- Binary floating point keeps zeros. -/
theorem keepsZero_float : KeepsZero Float where
  zero_add_zero := by decide +kernel
  zero_mul_zero := by decide +kernel
  zero_div _ hdivisor := zero_div hdivisor

/-- A shot of two qubits in the middle of a run, with amplitudes that are infinite or no numbers. -/
def strayShot : ShotState Generator Float :=
  ⟨⟨#[⟨0.0 / 0.0, 0.0⟩, ⟨1.0 / 0.0, 1.0⟩, ⟨-1.0 / 0.0, 0.5⟩, ⟨0.0, 0.0 / 0.0⟩]⟩, [], .ofSeed 0⟩

/-- Instructions that flip, read and reset the other qubit too. -/
def otherInstructions : List Instruction :=
  [.gate .x [1], .measure 1, .reset 1, .measure 0, .gate .x [1]]

theorem cleared_reads_zero_strayShot :
    KeepsZero Float ∧
      (∀ generator : Generator, Scalar.less generator.draw.1 Scalar.zero = false) ∧
      strayShot.state.amplitudes.size = 1 <<< 2 ∧ 0 < 2 ∧
      (∀ instruction ∈ otherInstructions, Spares 0 instruction) ∧
      ∀ first ∈ [Instruction.reset 0, .measure 0],
        Clears Generator.draw strayShot 0 first ∧
          let reached := (first :: otherInstructions).foldl (ShotState.perform Generator.draw)
            strayShot
          (reached.perform Generator.draw (.measure 0)).bits = false :: reached.bits := by
  have hsize : strayShot.state.amplitudes.size = 1 <<< 2 := rfl
  have hlater : ∀ instruction ∈ otherInstructions, Spares 0 instruction := by
    decide
  refine ⟨keepsZero_float, draw_not_less_zero, hsize, by decide, hlater, fun first hfirst => ?_⟩
  have hclears : Clears Generator.draw strayShot 0 first := by
    rcases List.mem_pair.mp hfirst with rfl | rfl
    · exact .inl rfl
    · exact .inr ⟨rfl, by decide +kernel⟩
  exact ⟨hclears,
    cleared_reads_zero keepsZero_float draw_not_less_zero hsize (by decide) hclears hlater⟩

end GateBench.Simulation
