import GateBench.Proofs.PermutationGates

/-!
States with permuted amplitudes.  The gates that flip a qubit, with or without controls, and the gate
that exchanges two qubits move amplitudes along maps of indices and do nothing else to them, so they
obey the laws of these maps exactly, whatever the amplitudes are.
-/

namespace GateBench.Simulation.Statevector

/-! ### Maps of indices -/

theorem flipIf_singleton (control target : Nat) :
    flipIf [control] target =
      fun index => if index.testBit control then flip target index else index := by
  funext index
  simp [flipIf]

theorem flipIf_pair (first second target : Nat) :
    flipIf [first, second] target =
      fun index =>
        if index.testBit first && index.testBit second then flip target index else index := by
  funext index
  simp [flipIf]

theorem testBit_flipIf_singleton (control target index other : Nat) :
    (flipIf [control] target index).testBit other =
      (index.testBit other ^^ (decide (target = other) && index.testBit control)) := by
  rw [testBit_flipIf]
  by_cases hother : target = other
  · cases hcontrol : index.testBit control <;> simp [hother, hcontrol]
  · simp [hother]

theorem exchangeBits_comm {first second : Nat} (hdistinct : first ≠ second) (index : Nat) :
    exchangeBits first second index = exchangeBits second first index := by
  apply Nat.eq_of_testBit_eq
  intro other
  rw [testBit_exchangeBits hdistinct, testBit_exchangeBits hdistinct.symm, Equiv.swap_comm]

/-- Two bits are exchanged by three flips of one of them under the other, in turns. -/
theorem exchangeBits_eq_flipIf {first second : Nat} (hdistinct : first ≠ second) (index : Nat) :
    exchangeBits first second index =
      flipIf [first] second (flipIf [second] first (flipIf [first] second index)) := by
  apply Nat.eq_of_testBit_eq
  intro other
  rw [testBit_exchangeBits hdistinct, Equiv.swap_apply_def]
  simp only [testBit_flipIf_singleton, hdistinct.symm]
  split_ifs with hfirst hsecond
  · subst hfirst
    cases index.testBit other <;> simp [hdistinct.symm]
  · subst hsecond
    cases index.testBit other <;> simp [hdistinct]
  · simp [Ne.symm hfirst, Ne.symm hsecond]

/-! ### Moved amplitudes -/

variable {α : Type} [Scalar α] {state next last : Statevector α} {move before : Nat → Nat}
  {qubits : Nat}

/-- The second state has as many amplitudes as the first, and each is the one that the first has where
a map leads. -/
structure IsMoved (state : Statevector α) (move : Nat → Nat) (next : Statevector α) : Prop where
  size : next.amplitudes.size = state.amplitudes.size
  lt : ∀ index < state.amplitudes.size, move index < state.amplitudes.size
  amplitude : ∀ index < state.amplitudes.size, next.amplitude index = state.amplitude (move index)

theorem amplitude_eq_getElem {index : Nat} (hindex : index < state.amplitudes.size) :
    state.amplitude index = state.amplitudes[index] := by
  rw [amplitude, Array.getElem?_eq_getElem hindex, Option.getD_some]

/-- A state is its amplitudes. -/
theorem eq_of_amplitude_eq (hsize : state.amplitudes.size = next.amplitudes.size)
    (hamplitude : ∀ index < state.amplitudes.size, state.amplitude index = next.amplitude index) :
    state = next := by
  obtain ⟨amplitudes⟩ := state
  obtain ⟨others⟩ := next
  congr 1
  refine Array.ext hsize fun index hindex hother => ?_
  rw [← amplitude_eq_getElem hindex, ← amplitude_eq_getElem hother]
  exact hamplitude index hindex

namespace IsMoved

theorem refl (state : Statevector α) : state.IsMoved id state where
  size := rfl
  lt _ hindex := hindex
  amplitude _ _ := rfl

theorem trans (hfirst : state.IsMoved before next) (hsecond : next.IsMoved move last) :
    state.IsMoved (before ∘ move) last where
  size := hsecond.size.trans hfirst.size
  lt index hindex := hfirst.lt _ (hfirst.size ▸ hsecond.lt index (hfirst.size ▸ hindex))
  amplitude index hindex := by
    have hnext : index < next.amplitudes.size := hfirst.size ▸ hindex
    rw [hsecond.amplitude index hnext,
      hfirst.amplitude _ (hfirst.size ▸ hsecond.lt index hnext)]
    rfl

/-- Maps that agree move amplitudes to the same state. -/
theorem unique (hnext : state.IsMoved move next) (hlast : state.IsMoved before last)
    (hsame : ∀ index, move index = before index) : next = last := by
  refine eq_of_amplitude_eq (hnext.size.trans hlast.size.symm) fun index hindex => ?_
  rw [hnext.size] at hindex
  rw [hnext.amplitude index hindex, hlast.amplitude index hindex, hsame]

/-- Amplitudes that are moved twice along an involution are back. -/
theorem restores (hmove : Function.Involutive move) (hnext : state.IsMoved move next)
    (hlast : next.IsMoved move last) : last = state :=
  (hnext.trans hlast).unique (refl state) hmove

end IsMoved

theorem isMoved_controlledFlip (hsize : state.amplitudes.size = 1 <<< qubits)
    {controls : List Nat} {target : Nat} (htarget : target < qubits)
    (hcontrols : target ∉ controls) :
    state.IsMoved (flipIf controls target) (state.controlledFlip controls target) where
  size := size_controlledFlip
  lt := by
    rw [hsize]
    exact fun _ hindex => flipIf_lt htarget hindex
  amplitude := by
    rw [hsize]
    exact fun _ hindex => amplitude_controlledFlip hsize htarget hcontrols hindex

theorem isMoved_swapQubits (hsize : state.amplitudes.size = 1 <<< qubits) {first second : Nat}
    (hfirst : first < qubits) (hsecond : second < qubits) (hdistinct : first ≠ second) :
    state.IsMoved (exchangeBits first second) (state.swapQubits first second) where
  size := size_swapQubits
  lt := by
    rw [hsize]
    exact fun _ hindex => exchangeBits_lt hfirst hsecond hindex
  amplitude := by
    rw [hsize]
    exact fun _ hindex => amplitude_swapQubits hsize hfirst hsecond hdistinct hindex

/-- A flip under controls undoes itself. -/
theorem controlledFlip_controlledFlip (hsize : state.amplitudes.size = 1 <<< qubits)
    {controls : List Nat} {target : Nat} (htarget : target < qubits)
    (hcontrols : target ∉ controls) :
    (state.controlledFlip controls target).controlledFlip controls target = state := by
  refine IsMoved.restores (flipIf_involutive hcontrols)
    (isMoved_controlledFlip hsize htarget hcontrols) ?_
  exact isMoved_controlledFlip (size_controlledFlip.trans hsize) htarget hcontrols

section Swap

variable {first second : Nat} (hsize : state.amplitudes.size = 1 <<< qubits)
  (hfirst : first < qubits) (hsecond : second < qubits) (hdistinct : first ≠ second)
include hsize hfirst hsecond hdistinct

theorem swapQubits_swapQubits :
    (state.swapQubits first second).swapQubits first second = state := by
  refine IsMoved.restores (exchangeBits_involutive hdistinct)
    (isMoved_swapQubits hsize hfirst hsecond hdistinct) ?_
  exact isMoved_swapQubits (size_swapQubits.trans hsize) hfirst hsecond hdistinct

theorem swapQubits_comm : state.swapQubits first second = state.swapQubits second first :=
  (isMoved_swapQubits hsize hfirst hsecond hdistinct).unique
    (isMoved_swapQubits hsize hsecond hfirst hdistinct.symm) (exchangeBits_comm hdistinct)

theorem swapQubits_eq_controlledFlips :
    state.swapQubits first second =
      ((state.controlledFlip [first] second).controlledFlip [second] first).controlledFlip
        [first] second := by
  have hcontrol : second ∉ [first] := by
    simpa using hdistinct.symm
  have hother : first ∉ [second] := by
    simpa using hdistinct
  have hone := isMoved_controlledFlip hsize hsecond hcontrol
  have htwo := isMoved_controlledFlip (hone.size.trans hsize) hfirst hother
  have hthree := isMoved_controlledFlip (htwo.size.trans (hone.size.trans hsize)) hsecond hcontrol
  exact (isMoved_swapQubits hsize hfirst hsecond hdistinct).unique
    ((hone.trans htwo).trans hthree) (exchangeBits_eq_flipIf hdistinct)

end Swap

/-- The gates that permute amplitudes do exactly that.  In a state of all amplitudes of so many
qubits, whatever these amplitudes are, the gate finds each new amplitude among the old ones: where
one qubit is flipped, flipped if one control or both controls are set, or where two qubits are
exchanged.  Each gate undoes itself; the order of two exchanged qubits makes no difference, and three
controlled flips in turns exchange them. -/
theorem permuting_gates (hsize : state.amplitudes.size = 1 <<< qubits) :
    (∀ target < qubits,
      state.IsMoved (flip target) (state.apply .x [target]) ∧
        (state.apply .x [target]).apply .x [target] = state) ∧
    (∀ control < qubits, ∀ target < qubits, control ≠ target →
      state.IsMoved (fun index => if index.testBit control then flip target index else index)
          (state.apply .controlledX [control, target]) ∧
        (state.apply .controlledX [control, target]).apply .controlledX [control, target] =
          state) ∧
    (∀ first < qubits, ∀ second < qubits, ∀ target < qubits, [first, second, target].Nodup →
      state.IsMoved
          (fun index =>
            if index.testBit first && index.testBit second then flip target index else index)
          (state.apply .doublyControlledX [first, second, target]) ∧
        (state.apply .doublyControlledX [first, second, target]).apply
          .doublyControlledX [first, second, target] = state) ∧
    ∀ first < qubits, ∀ second < qubits, first ≠ second →
      state.IsMoved (exchangeBits first second) (state.apply .swap [first, second]) ∧
        (state.apply .swap [first, second]).apply .swap [first, second] = state ∧
        state.apply .swap [first, second] = state.apply .swap [second, first] ∧
        state.apply .swap [first, second] =
          ((state.apply .controlledX [first, second]).apply .controlledX [second, first]).apply
            .controlledX [first, second] := by
  refine ⟨fun target htarget => ?_, fun control _ target htarget hdistinct => ?_,
    fun first _ second _ target htarget hnodup => ?_,
    fun first hfirst second hsecond hdistinct => ?_⟩
  · exact ⟨isMoved_controlledFlip hsize htarget List.not_mem_nil,
      controlledFlip_controlledFlip hsize htarget List.not_mem_nil⟩
  · have hcontrols : target ∉ [control] := by
      simpa using hdistinct.symm
    refine ⟨?_, controlledFlip_controlledFlip hsize htarget hcontrols⟩
    rw [← flipIf_singleton]
    exact isMoved_controlledFlip hsize htarget hcontrols
  · have hcontrols : target ∉ [first, second] := by
      grind
    refine ⟨?_, controlledFlip_controlledFlip hsize htarget hcontrols⟩
    rw [← flipIf_pair]
    exact isMoved_controlledFlip hsize htarget hcontrols
  · exact ⟨isMoved_swapQubits hsize hfirst hsecond hdistinct,
      swapQubits_swapQubits hsize hfirst hsecond hdistinct,
      swapQubits_comm hsize hfirst hsecond hdistinct,
      swapQubits_eq_controlledFlips hsize hfirst hsecond hdistinct⟩

/-- Three qubits whose amplitudes are all different; one of them is no number. -/
def eightAmplitudes : Statevector Float :=
  ⟨#[⟨0.0, 1.0⟩, ⟨1.0, 0.0⟩, ⟨-0.0, 0.0⟩, ⟨0.0 / 0.0, 2.0⟩, ⟨0.5, -0.5⟩, ⟨0.25, 0.0⟩,
    ⟨1.0 / 0.0, 0.0⟩, ⟨3.0, 4.0⟩]⟩

theorem permuting_gates_eightAmplitudes :
    eightAmplitudes.amplitudes.size = 1 <<< 3 ∧
      (eightAmplitudes.apply .x [1]).amplitude 1 = ⟨0.0 / 0.0, 2.0⟩ ∧
      (eightAmplitudes.apply .controlledX [2, 0]).amplitude 4 = ⟨0.25, 0.0⟩ ∧
      (eightAmplitudes.apply .doublyControlledX [0, 2, 1]).amplitude 5 = ⟨3.0, 4.0⟩ ∧
      (eightAmplitudes.apply .swap [0, 2]).amplitude 3 = ⟨1.0 / 0.0, 0.0⟩ ∧
      (eightAmplitudes.apply .swap [0, 2]).apply .swap [0, 2] = eightAmplitudes := by
  have hsize : eightAmplitudes.amplitudes.size = 1 <<< 3 := rfl
  obtain ⟨hx, hcontrolledX, hdoublyControlledX, hswap⟩ := permuting_gates hsize
  refine ⟨hsize, ?_, ?_, ?_, ?_, ?_⟩
  · exact (hx 1 (by decide)).1.amplitude 1 (by decide)
  · exact (hcontrolledX 2 (by decide) 0 (by decide) (by decide)).1.amplitude 4 (by decide)
  · exact (hdoublyControlledX 0 (by decide) 2 (by decide) 1 (by decide) (by decide)).1.amplitude 5
      (by decide)
  · exact (hswap 0 (by decide) 2 (by decide) (by decide)).1.amplitude 3 (by decide)
  · exact (hswap 0 (by decide) 2 (by decide) (by decide)).2.1

end GateBench.Simulation.Statevector
