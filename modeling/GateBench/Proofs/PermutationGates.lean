import GateBench.Simulation.Statevector
import Mathlib.Data.List.Basic
import Mathlib.Data.Nat.Bitwise
import Mathlib.Logic.Equiv.Basic

/-!
Gates that permute amplitudes.  They exchange pairs of amplitudes in place, in one pass over all
indices; since every pair is led by one index and by one only, each is exchanged once, and the pass
as a whole permutes the amplitudes.
-/

namespace GateBench.Simulation.Statevector

/-! ### Bits of indices -/

theorem testBit_flip (qubit index other : Nat) :
    (flip qubit index).testBit other = (index.testBit other ^^ decide (qubit = other)) := by
  rw [flip, Nat.testBit_xor, Nat.one_shiftLeft, Nat.testBit_two_pow]

theorem testBit_withBit (qubit index other : Nat) :
    (withBit qubit index).testBit other = (index.testBit other || decide (qubit = other)) := by
  rw [withBit, Nat.testBit_or, Nat.one_shiftLeft, Nat.testBit_two_pow]

theorem flip_involutive (qubit : Nat) : Function.Involutive (flip qubit) := by
  intro index
  exact Nat.xor_xor_cancel_right ..

theorem flip_comm (first second index : Nat) :
    flip first (flip second index) = flip second (flip first index) := by
  rw [flip, flip, flip, flip, Nat.xor_assoc, Nat.xor_assoc, Nat.xor_comm (1 <<< second)]

theorem flip_lt {qubit qubits index : Nat} (hqubit : qubit < qubits)
    (hindex : index < 1 <<< qubits) : flip qubit index < 1 <<< qubits := by
  rw [Nat.one_shiftLeft] at hindex ⊢
  rw [flip, Nat.one_shiftLeft]
  exact Nat.xor_lt_two_pow hindex (Nat.pow_lt_pow_right Nat.one_lt_two hqubit)

/-- Setting a bit that is clear flips it. -/
theorem withBit_eq_flip {qubit index : Nat} (hclear : index.testBit qubit = false) :
    withBit qubit index = flip qubit index := by
  apply Nat.eq_of_testBit_eq
  intro other
  rw [testBit_withBit, testBit_flip]
  by_cases hother : qubit = other
  · subst hother
    simp [hclear]
  · simp [hother]

/-! ### A pass of exchanges -/

/-- Indices below a size are in pairs, each led by one of its two members at most. -/
structure PairsUp (size : Nat) (leads : Nat → Bool) (partner : Nat → Nat) : Prop where
  involutive : Function.Involutive partner
  lt : ∀ index < size, partner index < size
  follows : ∀ index, leads index = true → leads (partner index) = false

/-- Where the amplitude at an index comes from, once a pass has gone through the indices below
`count`. -/
def origin (leads : Nat → Bool) (partner : Nat → Nat) (count index : Nat) : Nat :=
  if (leads index = true ∧ index < count) ∨ (leads (partner index) = true ∧ partner index < count)
  then partner index else index

section Pass

variable {size count index : Nat} {leads : Nat → Bool} {partner : Nat → Nat}

theorem origin_zero : origin leads partner 0 index = index := by
  simp [origin]

/-- An index that leads no pair changes nothing. -/
theorem origin_succ_of_not_leads (hleads : leads count = false) :
    origin leads partner (count + 1) index = origin leads partner count index := by
  have hsame (other : Nat) : leads other = true ∧ other < count + 1 ↔
      leads other = true ∧ other < count := by
    constructor
    · rintro ⟨hother, hlt⟩
      refine ⟨hother, Nat.lt_of_le_of_ne (Nat.le_of_lt_succ hlt) ?_⟩
      rintro rfl
      exact absurd hother (by simp [hleads])
    · rintro ⟨hother, hlt⟩
      exact ⟨hother, Nat.lt_succ_of_lt hlt⟩
  simp only [origin, hsame]

variable (hpairs : PairsUp size leads partner)
include hpairs

/-- Outside the pair that an index leads, its turn changes nothing. -/
theorem origin_succ_of_ne (hne : index ≠ count) (hpartner : index ≠ partner count) :
    origin leads partner (count + 1) index = origin leads partner count index := by
  have hother : partner index ≠ count := by
    rintro rfl
    exact hpartner (hpairs.involutive index).symm
  have hlt : index < count + 1 ↔ index < count := by
    omega
  have hpartnerLt : partner index < count + 1 ↔ partner index < count := by
    omega
  simp only [origin, hlt, hpartnerLt]

/-- Before its turn, a leading index and its partner are still where they were. -/
theorem origin_of_leads (hleads : leads count = true) :
    origin leads partner count count = count ∧
      origin leads partner count (partner count) = partner count := by
  have hfollows := hpairs.follows count hleads
  constructor
  · simp [origin, hfollows]
  · simp [origin, hfollows, hpairs.involutive count]

/-- At its turn, a leading index takes the place of its partner and the other way round. -/
theorem origin_succ_of_leads (hleads : leads count = true) :
    origin leads partner (count + 1) count = partner count ∧
      origin leads partner (count + 1) (partner count) = count := by
  constructor
  · simp [origin, hleads]
  · simp [origin, hleads, hpairs.involutive count]

end Pass

theorem getElem?_swapIfInBounds {β : Type} {values : Array β} {first second : Nat}
    (hfirst : first < values.size) (hsecond : second < values.size) (index : Nat) :
    (values.swapIfInBounds first second)[index]? =
      if second = index then values[first]? else if first = index then values[second]?
      else values[index]? := by
  rw [Array.swapIfInBounds_def, dif_pos hfirst, dif_pos hsecond, Array.getElem?_swap,
    Array.getElem?_eq_getElem hfirst, Array.getElem?_eq_getElem hsecond]

/-- The exchanges of a pass for the indices below `count`. -/
def passTo {β : Type} (leads : Nat → Bool) (partner : Nat → Nat) (values : Array β) (count : Nat) :
    Array β :=
  (List.range count).foldl
    (fun values index =>
      if leads index then values.swapIfInBounds index (partner index) else values)
    values

section Pass

variable {β : Type} {leads : Nat → Bool} {partner : Nat → Nat} {values : Array β} {count : Nat}

theorem passTo_succ :
    passTo leads partner values (count + 1) =
      if leads count then
        (passTo leads partner values count).swapIfInBounds count (partner count)
      else passTo leads partner values count := by
  rw [passTo, List.range_succ, List.foldl_append]
  rfl

theorem size_passTo : (passTo leads partner values count).size = values.size := by
  induction count with
  | zero => rfl
  | succ count ih =>
      rw [passTo_succ]
      split_ifs
      · rw [Array.size_swapIfInBounds, ih]
      · exact ih

/-- After the turns of the indices below `count`, the pairs that they lead are exchanged, and
nothing else has moved. -/
theorem getElem?_passTo (hpairs : PairsUp values.size leads partner) (hcount : count ≤ values.size)
    (index : Nat) :
    (passTo leads partner values count)[index]? = values[origin leads partner count index]? := by
  induction count generalizing index with
  | zero => rw [origin_zero]; rfl
  | succ count ih =>
      have hbefore := ih (Nat.le_of_succ_le hcount)
      rw [passTo_succ]
      cases hleads : leads count with
      | false =>
          rw [if_neg Bool.false_ne_true, origin_succ_of_not_leads hleads]
          exact hbefore index
      | true =>
          have hfirst : count < (passTo leads partner values count).size := by
            rw [size_passTo]
            exact hcount
          have hsecond : partner count < (passTo leads partner values count).size := by
            rw [size_passTo]
            exact hpairs.lt count hcount
          obtain ⟨hcountAt, hpartnerAt⟩ := origin_of_leads hpairs hleads
          obtain ⟨hcountTo, hpartnerTo⟩ := origin_succ_of_leads hpairs hleads
          rw [if_pos rfl, getElem?_swapIfInBounds hfirst hsecond]
          split_ifs with hpartner hindex
          · subst hpartner
            rw [hbefore, hcountAt, hpartnerTo]
          · subst hindex
            rw [hbefore, hpartnerAt, hcountTo]
          · rw [hbefore, origin_succ_of_ne hpairs (Ne.symm hindex) (Ne.symm hpartner)]

end Pass

variable {α : Type} {state : Statevector α} {leads : Nat → Bool} {partner : Nat → Nat}

theorem size_exchangePairs :
    (state.exchangePairs leads partner).amplitudes.size = state.amplitudes.size :=
  size_passTo

/-- What partners leading indices have is all that counts. -/
theorem exchangePairs_congr {other : Nat → Nat}
    (hsame : ∀ index < state.amplitudes.size, leads index = true → partner index = other index) :
    state.exchangePairs leads partner = state.exchangePairs leads other := by
  rw [exchangePairs, exchangePairs]
  congr 1
  refine List.foldl_ext _ _ _ fun values index hindex => ?_
  split_ifs with hleads
  · rw [hsame index (List.mem_range.mp hindex) hleads]
  · rfl

theorem size_controlledFlip {controls : List Nat} {qubit : Nat} :
    (state.controlledFlip controls qubit).amplitudes.size = state.amplitudes.size :=
  size_exchangePairs

theorem size_swapQubits {first second : Nat} :
    (state.swapQubits first second).amplitudes.size = state.amplitudes.size :=
  size_exchangePairs

variable [Scalar α]

/-- A whole pass exchanges every pair. -/
theorem amplitude_exchangePairs (hpairs : PairsUp state.amplitudes.size leads partner) {index : Nat}
    (hindex : index < state.amplitudes.size) :
    (state.exchangePairs leads partner).amplitude index =
      state.amplitude (if leads index || leads (partner index) then partner index else index) := by
  have hpass := getElem?_passTo hpairs (Nat.le_refl _) index
  have hpartner := hpairs.lt index hindex
  have horigin : origin leads partner state.amplitudes.size index =
      if leads index || leads (partner index) then partner index else index := by
    simp [origin, hindex, hpartner]
  rw [horigin] at hpass
  exact congrArg (·.getD Complex.zero) hpass

/-! ### Flipping a qubit -/

/-- The index with the bit of `qubit` flipped if the bits of all `controls` are set. -/
def flipIf (controls : List Nat) (qubit index : Nat) : Nat :=
  if controls.all index.testBit then flip qubit index else index

section Flip

variable {controls : List Nat} {qubit qubits index : Nat}

/-- Flipping a qubit leaves the controls as they are. -/
theorem all_testBit_flip (hcontrols : qubit ∉ controls) :
    controls.all (flip qubit index).testBit = controls.all index.testBit := by
  apply Bool.eq_iff_iff.mpr
  rw [List.all_eq_true, List.all_eq_true]
  refine forall₂_congr fun control hcontrol => ?_
  have hother : qubit ≠ control := by
    rintro rfl
    exact hcontrols hcontrol
  rw [testBit_flip, decide_eq_false hother, Bool.xor_false]

theorem flipIf_involutive (hcontrols : qubit ∉ controls) :
    Function.Involutive (flipIf controls qubit) := by
  intro index
  by_cases hall : controls.all index.testBit = true
  · rw [flipIf, flipIf, if_pos hall, all_testBit_flip hcontrols, if_pos hall,
      flip_involutive qubit index]
  · rw [flipIf, flipIf, if_neg hall, if_neg hall]

theorem flipIf_lt (hqubit : qubit < qubits) (hindex : index < 1 <<< qubits) :
    flipIf controls qubit index < 1 <<< qubits := by
  unfold flipIf
  split_ifs
  · exact flip_lt hqubit hindex
  · exact hindex

theorem testBit_flipIf (other : Nat) :
    (flipIf controls qubit index).testBit other =
      if qubit = other ∧ controls.all index.testBit then !index.testBit other
      else index.testBit other := by
  unfold flipIf
  by_cases hall : controls.all index.testBit = true
  · rw [if_pos hall, testBit_flip]
    by_cases hother : qubit = other
    · simp [hother, hall]
    · simp [hother]
  · rw [if_neg hall, if_neg (fun hboth => hall hboth.2)]

/-- A flip under controls moves every amplitude to where its qubit is flipped, if the controls are
set there. -/
theorem amplitude_controlledFlip (hsize : state.amplitudes.size = 1 <<< qubits)
    (hqubit : qubit < qubits) (hcontrols : qubit ∉ controls) (hindex : index < 1 <<< qubits) :
    (state.controlledFlip controls qubit).amplitude index =
      state.amplitude (flipIf controls qubit index) := by
  have hpairs : PairsUp state.amplitudes.size
      (fun index => controls.all index.testBit && !index.testBit qubit) (flip qubit) := by
    refine ⟨flip_involutive qubit, ?_, ?_⟩
    · intro index hindex
      rw [hsize] at hindex ⊢
      exact flip_lt hqubit hindex
    · intro index hleads
      rw [Bool.and_eq_true, Bool.not_eq_true'] at hleads
      simp [testBit_flip, hleads.2]
  have hflip : state.controlledFlip controls qubit = state.exchangePairs
      (fun index => controls.all index.testBit && !index.testBit qubit) (flip qubit) := by
    apply exchangePairs_congr
    intro index _ hleads
    rw [Bool.and_eq_true, Bool.not_eq_true'] at hleads
    exact withBit_eq_flip hleads.2
  rw [hflip, amplitude_exchangePairs hpairs (hsize ▸ hindex), all_testBit_flip hcontrols,
    testBit_flip]
  unfold flipIf
  cases index.testBit qubit <;> simp

end Flip

/-! ### Exchanging two qubits -/

/-- The index with the bits of two qubits exchanged. -/
def exchangeBits (first second index : Nat) : Nat :=
  if index.testBit first = index.testBit second then index else flip second (flip first index)

section Swap

variable {first second qubits index : Nat}

theorem testBit_flip_flip (hdistinct : first ≠ second) (other : Nat) :
    (flip second (flip first index)).testBit other =
      (index.testBit other ^^ decide (other = first ∨ other = second)) := by
  rw [testBit_flip, testBit_flip, Bool.xor_assoc]
  by_cases hfirst : other = first
  · subst hfirst
    simp [hdistinct, hdistinct.symm]
  · by_cases hsecond : other = second
    · subst hsecond
      simp [hdistinct]
    · simp [hfirst, hsecond, Ne.symm hfirst, Ne.symm hsecond]

theorem testBit_exchangeBits (hdistinct : first ≠ second) (other : Nat) :
    (exchangeBits first second index).testBit other =
      index.testBit (Equiv.swap first second other) := by
  unfold exchangeBits
  rw [Equiv.swap_apply_def]
  by_cases hsame : index.testBit first = index.testBit second
  · rw [if_pos hsame]
    split_ifs with hfirst hsecond
    · rw [hfirst, hsame]
    · rw [hsecond, hsame]
    · rfl
  -- bits that differ are exchanged by flipping both
  · have hopposite : (!index.testBit first) = index.testBit second :=
      (Bool.eq_not_of_ne (Ne.symm hsame)).symm
    rw [if_neg hsame, testBit_flip_flip hdistinct]
    split_ifs with hfirst hsecond
    · rw [hfirst, ← hopposite]
      simp
    · rw [hsecond, ← hopposite]
      simp
    · simp [hfirst, hsecond]

theorem exchangeBits_involutive (hdistinct : first ≠ second) :
    Function.Involutive (exchangeBits first second) := by
  intro index
  apply Nat.eq_of_testBit_eq
  intro other
  rw [testBit_exchangeBits hdistinct, testBit_exchangeBits hdistinct, Equiv.swap_apply_self]

theorem exchangeBits_lt (hfirst : first < qubits) (hsecond : second < qubits)
    (hindex : index < 1 <<< qubits) : exchangeBits first second index < 1 <<< qubits := by
  unfold exchangeBits
  split_ifs
  · exact hindex
  · exact flip_lt hsecond (flip_lt hfirst hindex)

/-- Exchanging two qubits moves every amplitude to where their bits are exchanged. -/
theorem amplitude_swapQubits (hsize : state.amplitudes.size = 1 <<< qubits)
    (hfirst : first < qubits) (hsecond : second < qubits) (hdistinct : first ≠ second)
    (hindex : index < 1 <<< qubits) :
    (state.swapQubits first second).amplitude index =
      state.amplitude (exchangeBits first second index) := by
  have hpairs : PairsUp state.amplitudes.size
      (fun index => index.testBit first && !index.testBit second)
      (fun index => flip second (flip first index)) := by
    refine ⟨?_, ?_, ?_⟩
    · intro index
      dsimp only
      rw [flip_comm first second, flip_involutive second, flip_involutive first]
    · intro index hindex
      rw [hsize] at hindex ⊢
      exact flip_lt hsecond (flip_lt hfirst hindex)
    · intro index hleads
      rw [Bool.and_eq_true] at hleads
      simp [testBit_flip_flip hdistinct, hleads.1]
  have hswap : state.swapQubits first second = state.exchangePairs
      (fun index => index.testBit first && !index.testBit second)
      (fun index => flip second (flip first index)) := by
    apply exchangePairs_congr
    intro index _ hleads
    rw [Bool.and_eq_true, Bool.not_eq_true'] at hleads
    apply withBit_eq_flip
    rw [testBit_flip, hleads.2, decide_eq_false hdistinct, Bool.xor_false]
  rw [hswap, amplitude_exchangePairs hpairs (hsize ▸ hindex), testBit_flip_flip hdistinct,
    testBit_flip_flip hdistinct]
  unfold exchangeBits
  cases index.testBit first <;> cases index.testBit second <;> simp

end Swap

end GateBench.Simulation.Statevector
