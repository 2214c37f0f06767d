import GateBench.Proofs.PermutationGates

/-!
Basis states.  In a basis state the amplitude is one at one index and zero at all others; the bits
of that index are the values of the qubits.  As far as arithmetic is exact on zero and one,
permuting gates, measurements and resets lead from basis states to basis states, and a measurement
reads the bit that is there.
-/

namespace GateBench.Simulation

/-- Arithmetic that is exact on zero and one. -/
structure ExactOnBits (α : Type) [Scalar α] : Prop where
  zero_add_zero : (Scalar.zero : α) + Scalar.zero = Scalar.zero
  zero_add_one : (Scalar.zero : α) + Scalar.one = Scalar.one
  one_add_zero : (Scalar.one : α) + Scalar.zero = Scalar.one
  zero_mul_zero : (Scalar.zero : α) * Scalar.zero = Scalar.zero
  one_mul_one : (Scalar.one : α) * Scalar.one = Scalar.one
  one_sub_zero : (Scalar.one : α) - Scalar.zero = Scalar.one
  sqrt_one : Scalar.sqrt (Scalar.one : α) = Scalar.one
  zero_div_one : (Scalar.zero : α) / Scalar.one = Scalar.zero
  one_div_one : (Scalar.one : α) / Scalar.one = Scalar.one
  zero_less_one : Scalar.less (Scalar.zero : α) Scalar.one = true

/-- A drawn number from zero up to one, one excluded. -/
structure IsFraction {α : Type} [Scalar α] (drawn : α) : Prop where
  not_less_zero : Scalar.less drawn Scalar.zero = false
  less_one : Scalar.less drawn Scalar.one = true

variable {α : Type} [Scalar α]

theorem Complex.normSquared_zero (hmul : (Scalar.zero : α) * Scalar.zero = Scalar.zero)
    (hadd : (Scalar.zero : α) + Scalar.zero = Scalar.zero) :
    (Complex.zero : Complex α).normSquared = Scalar.zero := by
  change (Scalar.zero : α) * Scalar.zero + Scalar.zero * Scalar.zero = Scalar.zero
  rw [hmul, hadd]

theorem Complex.shrink_zero {divisor : α} (hdiv : Scalar.zero / divisor = Scalar.zero) :
    (Complex.zero : Complex α).shrink divisor = Complex.zero := by
  change Complex.mk (Scalar.zero / divisor) (Scalar.zero / divisor) = Complex.zero
  rw [hdiv]
  rfl

/-- A bit as a scalar. -/
def Scalar.ofBit (bit : Bool) : α :=
  if bit then Scalar.one else Scalar.zero

theorem IsFraction.less_ofBit {drawn : α} (hdrawn : IsFraction drawn) (bit : Bool) :
    Scalar.less drawn (Scalar.ofBit bit) = bit := by
  cases bit with
  | false => exact hdrawn.not_less_zero
  | true => exact hdrawn.less_one

namespace ExactOnBits

variable (hexact : ExactOnBits α)
include hexact

theorem normSquared_zero : (Complex.zero : Complex α).normSquared = Scalar.zero :=
  Complex.normSquared_zero hexact.zero_mul_zero hexact.zero_add_zero

theorem normSquared_one : (Complex.one : Complex α).normSquared = Scalar.one := by
  change (Scalar.one : α) * Scalar.one + Scalar.zero * Scalar.zero = Scalar.one
  rw [hexact.one_mul_one, hexact.zero_mul_zero, hexact.one_add_zero]

theorem shrink_zero : (Complex.zero : Complex α).shrink Scalar.one = Complex.zero :=
  Complex.shrink_zero hexact.zero_div_one

theorem shrink_one : (Complex.one : Complex α).shrink Scalar.one = Complex.one := by
  change Complex.mk ((Scalar.one : α) / Scalar.one) (Scalar.zero / Scalar.one) = Complex.one
  rw [hexact.one_div_one, hexact.zero_div_one]
  rfl

/-- The probability of what a measurement reads is one. -/
theorem probability_of_outcome (bit : Bool) :
    (if bit then Scalar.ofBit bit else Scalar.one - Scalar.ofBit bit : α) = Scalar.one := by
  cases bit with
  | false => exact hexact.one_sub_zero
  | true => rfl

end ExactOnBits

namespace Statevector

variable {state next : Statevector α} {qubits qubit index other : Nat}

omit [Scalar α] in
theorem size_rebuild {amplitude : Nat → Complex α} :
    (state.rebuild amplitude).amplitudes.size = state.amplitudes.size :=
  Array.size_ofFn

theorem amplitude_rebuild {amplitude : Nat → Complex α} (hindex : index < state.amplitudes.size) :
    (state.rebuild amplitude).amplitude index = amplitude index := by
  have hbound : index < (state.rebuild amplitude).amplitudes.size := by
    rw [size_rebuild]
    exact hindex
  rw [Statevector.amplitude, Array.getElem?_eq_getElem hbound, Option.getD_some]
  exact Array.getElem_ofFn hbound

/-- A state of so many qubits whose amplitude is one at an index and zero elsewhere. -/
structure IsBasis (state : Statevector α) (qubits index : Nat) : Prop where
  size : state.amplitudes.size = 1 <<< qubits
  lt : index < 1 <<< qubits
  amplitude : ∀ other < 1 <<< qubits,
    state.amplitude other = if other = index then Complex.one else Complex.zero

theorem isBasis_initial (qubits : Nat) : (initial qubits : Statevector α).IsBasis qubits 0 where
  size := by
    rw [initial, Array.size_setIfInBounds, Array.size_replicate]
  lt := by
    rw [Nat.one_shiftLeft]
    exact Nat.two_pow_pos qubits
  amplitude := by
    intro other hother
    have hpositive : 0 < 1 <<< qubits := Nat.zero_lt_of_lt hother
    rw [Statevector.amplitude, initial, Array.getElem?_setIfInBounds, Array.size_replicate,
      if_pos hpositive, Array.getElem?_replicate, if_pos hother]
    by_cases hzero : other = 0
    · rw [if_pos hzero.symm, if_pos hzero]
      rfl
    · rw [if_neg (Ne.symm hzero), if_neg hzero]
      rfl

namespace IsBasis

/-- Amplitudes that move along an involution take a basis state to one. -/
theorem of_involutive (hbasis : state.IsBasis qubits index)
    (hsize : next.amplitudes.size = state.amplitudes.size) {move : Nat → Nat}
    (hmove : Function.Involutive move) (hlt : ∀ other < 1 <<< qubits, move other < 1 <<< qubits)
    (hnext : ∀ other < 1 <<< qubits, next.amplitude other = state.amplitude (move other)) :
    next.IsBasis qubits (move index) where
  size := hsize.trans hbasis.size
  lt := hlt index hbasis.lt
  amplitude := by
    intro other hother
    rw [hnext other hother, hbasis.amplitude _ (hlt other hother)]
    simp only [hmove.eq_iff]

theorem controlledFlip (hbasis : state.IsBasis qubits index) {controls : List Nat}
    (hqubit : qubit < qubits) (hcontrols : qubit ∉ controls) :
    (state.controlledFlip controls qubit).IsBasis qubits (flipIf controls qubit index) := by
  apply hbasis.of_involutive size_controlledFlip (flipIf_involutive hcontrols)
  · intro other hother
    exact flipIf_lt hqubit hother
  · intro other hother
    exact amplitude_controlledFlip hbasis.size hqubit hcontrols hother

theorem swapQubits (hbasis : state.IsBasis qubits index) {first second : Nat}
    (hfirst : first < qubits) (hsecond : second < qubits) (hdistinct : first ≠ second) :
    (state.swapQubits first second).IsBasis qubits (exchangeBits first second index) := by
  apply hbasis.of_involutive size_swapQubits (exchangeBits_involutive hdistinct)
  · intro other hother
    exact exchangeBits_lt hfirst hsecond hother
  · intro other hother
    exact amplitude_swapQubits hbasis.size hfirst hsecond hdistinct hother

/-! ### Measurements -/

/-- The squared magnitudes below a bound add up to one once the index of the state is among those
that are added. -/
theorem sum_below (hbasis : state.IsBasis qubits index) (hexact : ExactOnBits α) (qubit : Nat)
    {count : Nat} (hcount : count ≤ 1 <<< qubits) :
    (List.range count).foldl
        (fun sum index =>
          if index.testBit qubit then sum + (state.amplitude index).normSquared else sum)
        (Scalar.zero : α) =
      Scalar.ofBit (decide (index < count) && index.testBit qubit) := by
  induction count with
  | zero => simp [Scalar.ofBit]
  | succ count ih =>
      rw [List.range_succ, List.foldl_append, ih (Nat.le_of_succ_le hcount)]
      rw [List.foldl_cons, List.foldl_nil, hbasis.amplitude count hcount]
      by_cases hindex : count = index
      · subst hindex
        rw [if_pos rfl, hexact.normSquared_one]
        cases count.testBit qubit with
        | false => simp
        | true => simpa [Scalar.ofBit] using hexact.zero_add_one
      · have hlt : index < count + 1 ↔ index < count := by
          omega
        rw [if_neg hindex, hexact.normSquared_zero]
        simp only [hlt]
        cases count.testBit qubit with
        | false => simp
        | true =>
            cases decide (index < count) && index.testBit qubit with
            | false => simpa [Scalar.ofBit] using hexact.zero_add_zero
            | true => simpa [Scalar.ofBit] using hexact.one_add_zero

theorem probabilityOne (hbasis : state.IsBasis qubits index) (hexact : ExactOnBits α)
    (qubit : Nat) : state.probabilityOne qubit = Scalar.ofBit (index.testBit qubit) := by
  have hsum := hbasis.sum_below hexact qubit (Nat.le_refl _)
  rw [decide_eq_true hbasis.lt, Bool.true_and] at hsum
  rw [Statevector.probabilityOne, hbasis.size]
  exact hsum

/-- Keeping what agrees with a bit of the state changes nothing. -/
theorem collapse (hbasis : state.IsBasis qubits index) (hexact : ExactOnBits α) (qubit : Nat) :
    (state.collapse qubit (index.testBit qubit) Scalar.one).IsBasis qubits index where
  size := size_rebuild.trans hbasis.size
  lt := hbasis.lt
  amplitude := by
    intro other hother
    rw [Statevector.collapse, amplitude_rebuild (hbasis.size ▸ hother), hexact.sqrt_one,
      hexact.zero_less_one, hbasis.amplitude other hother]
    by_cases hindex : other = index
    · subst hindex
      simp [hexact.shrink_one]
    · simp [hindex, hexact.shrink_zero]

/-- A measurement reads the bit of its qubit, and leaves the state as it is. -/
theorem measure (hbasis : state.IsBasis qubits index) (hexact : ExactOnBits α) (qubit : Nat)
    {drawn : α} (hdrawn : IsFraction drawn) :
    (state.measure qubit drawn).1 = index.testBit qubit ∧
      (state.measure qubit drawn).2.IsBasis qubits index := by
  rw [Statevector.measure]
  dsimp only
  rw [hbasis.probabilityOne hexact, hdrawn.less_ofBit, hexact.probability_of_outcome]
  exact ⟨rfl, hbasis.collapse hexact qubit⟩

end IsBasis

/-- The index with the bit of a qubit cleared. -/
def withoutBit (qubit index : Nat) : Nat :=
  if index.testBit qubit then flip qubit index else index

theorem testBit_withoutBit (qubit index other : Nat) :
    (withoutBit qubit index).testBit other = (index.testBit other && decide (qubit ≠ other)) := by
  unfold withoutBit
  split_ifs with hset
  · rw [testBit_flip]
    by_cases hother : qubit = other
    · subst hother
      simp [hset]
    · simp [hother]
  · by_cases hother : qubit = other
    · subst hother
      simpa using hset
    · simp [hother]

/-- A reset clears the bit of its qubit. -/
theorem IsBasis.reset (hbasis : state.IsBasis qubits index) (hexact : ExactOnBits α)
    (hqubit : qubit < qubits) {drawn : α} (hdrawn : IsFraction drawn) :
    (state.reset qubit drawn).IsBasis qubits (withoutBit qubit index) := by
  obtain ⟨hreads, hmeasured⟩ := hbasis.measure hexact qubit hdrawn
  rw [Statevector.reset]
  dsimp only
  rw [hreads]
  unfold withoutBit
  split_ifs with hset
  · exact hmeasured.controlledFlip hqubit List.not_mem_nil
  · exact hmeasured

end Statevector

end GateBench.Simulation
