import GateBench.Proofs.BasisStates
import GateBench.Proofs.CheckedLookups

/-!
Gates on amplitudes that are read and written where they stand.  A pass goes through all indices
and changes an amplitude and its partner in place; a read, a write or an exchange beyond the state,
a missing operand and a mask beyond a word of sixty-four bits all make the gate fail.  On a state of
fewer than 64 qubits, operands below that number make no gate fail, and what it comes to is the gate
that computes all new amplitudes from the old ones.
-/

namespace GateBench.Simulation

open GateBench.Program

/-! ### Checked access -/

/-- The mask of a qubit, if it fits in a word. -/
def mask? (qubit : Nat) : Option Nat :=
  if qubit < 64 then some (1 <<< qubit) else none

/-- The mask of several qubits. -/
def masks? : List Nat → Option Nat
  | [] => some 0
  | qubit :: others => do return (← mask? qubit) ||| (← masks? others)

/-- Exchange two places of an array, if it has both. -/
def swap? {β : Type} (values : Array β) (first second : Nat) : Option (Array β) :=
  if h : first < values.size ∧ second < values.size then
    some (values.swap first second h.1 h.2)
  else none

theorem mask?_eq {qubit : Nat} (hqubit : qubit < 64) : mask? qubit = some (1 <<< qubit) :=
  if_pos hqubit

theorem swap?_eq {β : Type} {values : Array β} {first second : Nat}
    (hfirst : first < values.size) (hsecond : second < values.size) :
    swap? values first second = some (values.swapIfInBounds first second) := by
  rw [swap?, dif_pos ⟨hfirst, hsecond⟩, Array.swapIfInBounds_def, dif_pos hfirst, dif_pos hsecond]

/-- A loop each turn of which succeeds does what its turns do. -/
theorem foldlM_eq_some {β γ : Type} {turn? : β → γ → Option β} {turn : β → γ → β}
    {items : List γ} (holds : β → Prop)
    (hturn : ∀ value, holds value → ∀ item ∈ items,
      turn? value item = some (turn value item) ∧ holds (turn value item))
    {start : β} (hstart : holds start) :
    items.foldlM turn? start = some (items.foldl turn start) := by
  induction items generalizing start with
  | nil => rfl
  | cons first others ih =>
      obtain ⟨hfirst, hholds⟩ := hturn start hstart first List.mem_cons_self
      rw [List.foldlM_cons, hfirst, List.foldl_cons]
      exact ih (fun value hvalue item hitem => hturn value hvalue item
        (List.mem_cons_of_mem first hitem)) hholds

namespace Statevector

variable {α : Type}

/-- Exchange amplitudes in one pass. -/
def exchangePairs? (state : Statevector α) (leads : Nat → Bool) (partner : Nat → Nat) :
    Option (Statevector α) := do
  let amplitudes ← (List.range state.amplitudes.size).foldlM
    (fun amplitudes index =>
      if leads index then swap? amplitudes index (partner index) else some amplitudes)
    state.amplitudes
  return ⟨amplitudes⟩

/-- One turn of a pass over the pairs of a qubit: read both amplitudes where the bit is clear, and
write both new ones. -/
def combineAt? (mask : Nat) (low high : Complex α → Complex α → Complex α)
    (amplitudes : Array (Complex α)) (index : Nat) : Option (Array (Complex α)) := do
  if index &&& mask = 0 then
    let partner := index ||| mask
    let first ← amplitudes[index]?
    let second ← amplitudes[partner]?
    let amplitudes ← put? amplitudes index (low first second)
    put? amplitudes partner (high first second)
  else return amplitudes

/-- Combine the amplitudes of each pair of indices that differ in one qubit, in one pass. -/
def combine? (state : Statevector α) (qubit : Nat)
    (low high : Complex α → Complex α → Complex α) : Option (Statevector α) := do
  let mask ← mask? qubit
  let amplitudes ← (List.range state.amplitudes.size).foldlM (combineAt? mask low high)
    state.amplitudes
  return ⟨amplitudes⟩

/-- Flip a qubit where all controls are set. -/
def controlledFlip? (state : Statevector α) (controls : List Nat) (qubit : Nat) :
    Option (Statevector α) := do
  let controls ← masks? controls
  let target ← mask? qubit
  state.exchangePairs? (fun index => index &&& controls = controls && index &&& target = 0)
    (· ||| target)

/-- The bits of a word that a mask leaves out. -/
def complement (mask : Nat) : Nat :=
  UInt64.size - (mask + 1)

/-- Exchange two qubits. -/
def swapQubits? (state : Statevector α) (first second : Nat) : Option (Statevector α) := do
  let first ← mask? first
  let second ← mask? second
  state.exchangePairs? (fun index => index &&& first ≠ 0 && index &&& second = 0)
    fun index => (index &&& complement first) ||| second

variable [Scalar α]

/-- The state in which every qubit is zero. -/
def initial? (qubits : Nat) : Option (Statevector α) := do
  let size ← mask? qubits
  let amplitudes ← put? (Array.replicate size Complex.zero) 0 Complex.one
  return ⟨amplitudes⟩

/-- The Hadamard gate. -/
def hadamard? (state : Statevector α) (qubit : Nat) : Option (Statevector α) :=
  let factor : α := Scalar.ofFloat (1.0 / Float.sqrt 2.0)
  state.combine? qubit (fun a b => .scale factor (a + b)) (fun a b => .scale factor (a - b))

/-- The Pauli Y gate. -/
def pauliY? (state : Statevector α) (qubit : Nat) : Option (Statevector α) :=
  let i : Complex α := ⟨Scalar.zero, Scalar.one⟩
  state.combine? qubit (fun _ b => -i * b) (fun a _ => i * a)

/-- Rotation about the X axis. -/
def rotateX? (state : Statevector α) (qubit : Nat) (angle : Float) : Option (Statevector α) :=
  let half := angle / 2.0
  let c : α := Scalar.ofFloat half.cos
  let s : Complex α := ⟨Scalar.zero, Scalar.ofFloat (-half.sin)⟩
  state.combine? qubit (fun a b => .scale c a + s * b) (fun a b => s * a + .scale c b)

/-- Rotation about the Y axis. -/
def rotateY? (state : Statevector α) (qubit : Nat) (angle : Float) : Option (Statevector α) :=
  let half := angle / 2.0
  let c : α := Scalar.ofFloat half.cos
  let s : α := Scalar.ofFloat half.sin
  state.combine? qubit (fun a b => .scale c a - .scale s b) (fun a b => .scale s a + .scale c b)

/-- Multiply the amplitudes where the bit of a qubit is set.  Each is visited with its index, so
nothing is looked up. -/
def shiftPhase? (state : Statevector α) (qubit : Nat) (angle : Float) :
    Option (Statevector α) := do
  let _ ← mask? qubit
  return state.shiftPhase qubit angle

/-- Rotation about the Z axis; nothing is looked up. -/
def rotateZ? (state : Statevector α) (qubit : Nat) (angle : Float) : Option (Statevector α) := do
  let _ ← mask? qubit
  return state.rotateZ qubit angle

/-- Negate the amplitudes where the bits of both qubits are set; nothing is looked up. -/
def controlledZ? (state : Statevector α) (first second : Nat) : Option (Statevector α) := do
  let _ ← masks? [first, second]
  return state.controlledZ first second

/-- Apply a gate to the operands that it has. -/
def applyGate? (state : Statevector α) (gate : Gate) (qubits : List Nat) :
    Option (Statevector α) := do
  match gate with
  | .h => state.hadamard? (← qubits[0]?)
  | .x => state.controlledFlip? [] (← qubits[0]?)
  | .y => state.pauliY? (← qubits[0]?)
  | .z => state.shiftPhase? (← qubits[0]?) Syntax.piValue
  | .s => state.shiftPhase? (← qubits[0]?) (Syntax.piValue / 2.0)
  | .sInverse => state.shiftPhase? (← qubits[0]?) (-Syntax.piValue / 2.0)
  | .t => state.shiftPhase? (← qubits[0]?) (Syntax.piValue / 4.0)
  | .tInverse => state.shiftPhase? (← qubits[0]?) (-Syntax.piValue / 4.0)
  | .rotateX angle => state.rotateX? (← qubits[0]?) angle
  | .rotateY angle => state.rotateY? (← qubits[0]?) angle
  | .rotateZ angle => state.rotateZ? (← qubits[0]?) angle
  | .phase angle => state.shiftPhase? (← qubits[0]?) angle
  | .controlledX => state.controlledFlip? [← qubits[0]?] (← qubits[1]?)
  | .controlledZ => state.controlledZ? (← qubits[0]?) (← qubits[1]?)
  | .swap => state.swapQubits? (← qubits[0]?) (← qubits[1]?)
  | .doublyControlledX =>
    state.controlledFlip? [← qubits[0]?, ← qubits[1]?] (← qubits[2]?)

/-- Measure a qubit; nothing is looked up. -/
def measure? (state : Statevector α) (qubit : Nat) (drawn : α) :
    Option (Bool × Statevector α) := do
  let _ ← mask? qubit
  return state.measure qubit drawn

/-- Measure a qubit, and flip it if it reads one. -/
def reset? (state : Statevector α) (qubit : Nat) (drawn : α) : Option (Statevector α) := do
  let (outcome, state) ← state.measure? qubit drawn
  if outcome then state.controlledFlip? [] qubit else return state

end Statevector

/-! ### Masks -/

theorem and_mask_eq_zero_iff {qubit index : Nat} :
    index &&& 1 <<< qubit = 0 ↔ index.testBit qubit = false := by
  rw [Nat.one_shiftLeft, Nat.and_two_pow]
  cases index.testBit qubit <;> simp

theorem and_mask_eq_mask_iff {qubit index : Nat} :
    index &&& 1 <<< qubit = 1 <<< qubit ↔ index.testBit qubit = true := by
  have hsome := Nat.two_pow_pos qubit
  rw [Nat.one_shiftLeft, Nat.and_two_pow]
  cases index.testBit qubit
  · simpa using hsome.ne
  · simp

/-- All bits of two masks are set if those of each are. -/
theorem and_or_eq_iff {index first second : Nat} :
    index &&& (first ||| second) = first ||| second ↔
      index &&& first = first ∧ index &&& second = second := by
  have hcovers : ∀ mask : Nat, index &&& mask = mask ↔
      ∀ bit, mask.testBit bit = true → index.testBit bit = true := by
    intro mask
    constructor
    · intro hmask bit hbit
      rw [← hmask, Nat.testBit_and, Bool.and_eq_true] at hbit
      exact hbit.1
    · intro hall
      apply Nat.eq_of_testBit_eq
      intro bit
      rw [Nat.testBit_and]
      cases hbit : mask.testBit bit with
      | false => rw [Bool.and_false]
      | true => rw [hall bit hbit, Bool.and_true]
  simp only [hcovers, Nat.testBit_or, Bool.or_eq_true, or_imp, forall_and]

theorem masks?_eq {qubits : List Nat} (hqubits : ∀ qubit ∈ qubits, qubit < 64) :
    ∃ mask, masks? qubits = some mask ∧
      ∀ index, index &&& mask = mask ↔ qubits.all index.testBit = true := by
  induction qubits with
  | nil => exact ⟨0, rfl, by simp⟩
  | cons qubit others ih =>
      obtain ⟨hqubit, hothers⟩ := List.forall_mem_cons.mp hqubits
      obtain ⟨mask, hmask, hset⟩ := ih hothers
      refine ⟨1 <<< qubit ||| mask, by rw [masks?, mask?_eq hqubit, hmask]; rfl, fun index => ?_⟩
      rw [and_or_eq_iff, and_mask_eq_mask_iff, hset, List.all_cons, Bool.and_eq_true]

namespace Statevector

theorem testBit_complement {qubit : Nat} (hqubit : qubit < 64) (other : Nat) :
    (complement (1 <<< qubit)).testBit other =
      (decide (other < 64) && !decide (qubit = other)) := by
  have hsize : UInt64.size = 2 ^ 64 := rfl
  rw [complement, Nat.one_shiftLeft, hsize,
    Nat.testBit_two_pow_sub_succ (Nat.pow_lt_pow_right Nat.one_lt_two hqubit),
    Nat.testBit_two_pow]

/-- What is left of an index under the complement of a set bit is the index with the bit flipped. -/
theorem and_complement {qubit index : Nat} (hqubit : qubit < 64) (hindex : index < 2 ^ 64)
    (hset : index.testBit qubit = true) :
    index &&& complement (1 <<< qubit) = flip qubit index := by
  apply Nat.eq_of_testBit_eq
  intro other
  rw [Nat.testBit_and, testBit_complement hqubit, testBit_flip]
  by_cases hword : other < 64
  · by_cases hother : qubit = other
    · subst hother
      simp [hset]
    · simp [hword, hother]
  · have hclear : index.testBit other = false :=
      Nat.testBit_eq_false_of_lt (Nat.lt_of_lt_of_le hindex
        (Nat.pow_le_pow_right Nat.two_pos (Nat.le_of_not_lt hword)))
    have hother : qubit ≠ other := by
      rintro rfl
      exact hword hqubit
    simp [hclear, hother]

/-! ### Passes -/

variable {α : Type} {state : Statevector α} {qubits qubit : Nat}

theorem exchangePairs?_eq {leads : Nat → Bool} {partner : Nat → Nat}
    (hpartner : ∀ index < state.amplitudes.size, leads index = true →
      partner index < state.amplitudes.size) :
    state.exchangePairs? leads partner = some (state.exchangePairs leads partner) := by
  have hpass : (List.range state.amplitudes.size).foldlM (fun amplitudes index =>
        if leads index then swap? amplitudes index (partner index) else some amplitudes)
      state.amplitudes = some (state.exchangePairs leads partner).amplitudes := by
    refine foldlM_eq_some (fun amplitudes => amplitudes.size = state.amplitudes.size) ?_ rfl
    intro amplitudes hsize index hindex
    have hindex := List.mem_range.mp hindex
    split_ifs with hleads
    · refine ⟨swap?_eq (hsize ▸ hindex) (hsize ▸ hpartner index hindex hleads), ?_⟩
      rw [Array.size_swapIfInBounds, hsize]
    · exact ⟨rfl, hsize⟩
  rw [exchangePairs?, hpass]
  rfl

/-- Setting a bit does not lead out of a state that has its qubit. -/
theorem withBit_lt {index : Nat} (hqubit : qubit < qubits) (hindex : index < 1 <<< qubits) :
    withBit qubit index < 1 <<< qubits := by
  rw [Nat.one_shiftLeft] at hindex ⊢
  rw [withBit, Nat.one_shiftLeft]
  exact Nat.or_lt_two_pow hindex (Nat.pow_lt_pow_right Nat.one_lt_two hqubit)

section Pairs

variable {index count : Nat}

theorem withoutBit_of_clear (hclear : index.testBit qubit = false) :
    withoutBit qubit index = index :=
  if_neg (by simp [hclear])

theorem withoutBit_of_set (hset : index.testBit qubit = true) :
    withoutBit qubit index = flip qubit index :=
  if_pos hset

theorem testBit_flip_self : (flip qubit index).testBit qubit = !index.testBit qubit := by
  simp [testBit_flip]

theorem withoutBit_le : withoutBit qubit index ≤ index := by
  cases hset : index.testBit qubit with
  | false => exact (withoutBit_of_clear hset).le
  | true =>
      have hclear : (flip qubit index).testBit qubit = false := by
        rw [testBit_flip_self, hset]
        rfl
      have hback : withBit qubit (flip qubit index) = index := by
        rw [withBit_eq_flip hclear, flip_involutive qubit index]
      calc withoutBit qubit index = flip qubit index := withoutBit_of_set hset
        _ ≤ withBit qubit (flip qubit index) := Nat.left_le_or
        _ = index := hback

/-- Two indices make a pair only with each other. -/
theorem withoutBit_eq_iff (hclear : count.testBit qubit = false) :
    withoutBit qubit index = count ↔ index = count ∨ index = flip qubit count := by
  constructor
  · rintro rfl
    cases hset : index.testBit qubit with
    | false => exact .inl (withoutBit_of_clear hset).symm
    | true =>
        rw [withoutBit_of_set hset, flip_involutive qubit index]
        exact .inr rfl
  · rintro (rfl | rfl)
    · exact withoutBit_of_clear hclear
    · rw [withoutBit_of_set (by rw [testBit_flip_self, hclear]; rfl), flip_involutive qubit count]

end Pairs

variable [Scalar α]

/-- Amplitudes during a pass over the pairs of a qubit: those whose pair has had its turn are
combined, the others are as they were. -/
structure CombinedTo (state : Statevector α) (qubit : Nat)
    (low high : Complex α → Complex α → Complex α) (count : Nat)
    (amplitudes : Array (Complex α)) : Prop where
  size : amplitudes.size = state.amplitudes.size
  at_index : ∀ index < state.amplitudes.size, amplitudes[index]? =
    some (if withoutBit qubit index < count then (state.combine qubit low high).amplitude index
      else state.amplitude index)

variable {low high : Complex α → Complex α → Complex α} {count : Nat}
  {amplitudes : Array (Complex α)}

theorem combinedTo_zero : CombinedTo state qubit low high 0 state.amplitudes where
  size := rfl
  at_index := by
    intro index hindex
    rw [if_neg (Nat.not_lt_zero _), amplitude, Array.getElem?_eq_getElem hindex, Option.getD_some]

theorem amplitude_combine {index : Nat} (hindex : index < state.amplitudes.size) :
    (state.combine qubit low high).amplitude index =
      if index.testBit qubit then
        high (state.amplitude (flip qubit index)) (state.amplitude index)
      else low (state.amplitude index) (state.amplitude (flip qubit index)) :=
  amplitude_rebuild hindex

/-- An index whose bit is set has no turn of its own. -/
theorem CombinedTo.skip (hcombined : CombinedTo state qubit low high count amplitudes)
    (hset : count.testBit qubit = true) :
    CombinedTo state qubit low high (count + 1) amplitudes where
  size := hcombined.size
  at_index := by
    intro index hindex
    have hne : withoutBit qubit index ≠ count := by
      rintro rfl
      simp [testBit_withoutBit] at hset
    have hlt : withoutBit qubit index < count + 1 ↔ withoutBit qubit index < count := by
      omega
    simp only [hlt]
    exact hcombined.at_index index hindex

omit [Scalar α] in
/-- The turn of an index whose bit is clear changes the amplitudes of its pair only. -/
theorem combineAt?_eq {first second : Complex α} (hclear : count.testBit qubit = false)
    (hfirst : amplitudes[count]? = some first)
    (hsecond : amplitudes[flip qubit count]? = some second) :
    ∃ next, combineAt? (1 <<< qubit) low high amplitudes count = some next ∧
      next.size = amplitudes.size ∧ ∀ index : Nat, next[index]? =
        if flip qubit count = index then some (high first second)
        else if count = index then some (low first second) else amplitudes[index]? := by
  have hcount := (Array.getElem?_eq_some_iff.mp hfirst).1
  have hpartner : flip qubit count < (amplitudes.set count (low first second) hcount).size := by
    rw [Array.size_set]
    exact (Array.getElem?_eq_some_iff.mp hsecond).1
  have hmask : count ||| 1 <<< qubit = flip qubit count := withBit_eq_flip hclear
  refine ⟨(amplitudes.set count (low first second) hcount).set (flip qubit count)
    (high first second) hpartner, ?_, ?_, fun index => ?_⟩
  · rw [combineAt?, if_pos (and_mask_eq_zero_iff.mpr hclear)]
    simp only [hmask, hfirst, hsecond, put?_eq hcount, Option.bind_eq_bind, Option.bind_some]
    exact put?_eq hpartner _
  · rw [Array.size_set, Array.size_set]
  · rw [Array.getElem?_set, Array.getElem?_set]

/-- At its turn, an index whose bit is clear finds both amplitudes of its pair as they were, and
combines them. -/
theorem CombinedTo.turn (hsize : state.amplitudes.size = 1 <<< qubits) (hqubit : qubit < qubits)
    (hcombined : CombinedTo state qubit low high count amplitudes)
    (hcount : count < state.amplitudes.size) (hclear : count.testBit qubit = false) :
    ∃ next, combineAt? (1 <<< qubit) low high amplitudes count = some next ∧
      CombinedTo state qubit low high (count + 1) next := by
  have hset : (flip qubit count).testBit qubit = true := by
    rw [testBit_flip_self, hclear]
    rfl
  have hpartner : flip qubit count < state.amplitudes.size := by
    rw [hsize] at hcount ⊢
    exact flip_lt hqubit hcount
  have hpair : withoutBit qubit (flip qubit count) = count :=
    (withoutBit_eq_iff hclear).mpr (.inr rfl)
  have hfirst : amplitudes[count]? = some (state.amplitude count) := by
    rw [hcombined.at_index count hcount, withoutBit_of_clear hclear, if_neg (Nat.lt_irrefl count)]
  have hsecond : amplitudes[flip qubit count]? = some (state.amplitude (flip qubit count)) := by
    rw [hcombined.at_index _ hpartner, hpair, if_neg (Nat.lt_irrefl count)]
  obtain ⟨next, hnext, hnextSize, hvalues⟩ := @combineAt?_eq _ _ low high _ _ _ _ hclear
    hfirst hsecond
  refine ⟨next, hnext, hnextSize.trans hcombined.size, fun index hindex => ?_⟩
  rw [hvalues, hcombined.at_index index hindex, amplitude_combine hindex]
  by_cases hsame : withoutBit qubit index = count
  · rw [hsame, if_pos (Nat.lt_succ_self count)]
    rcases (withoutBit_eq_iff hclear).mp hsame with rfl | rfl
    · have hne : flip qubit index ≠ index := by
        intro heq
        rw [heq, hclear] at hset
        nomatch hset
      simp [hne, hclear]
    · simp [hset, flip_involutive qubit count]
  · have hlt : withoutBit qubit index < count + 1 ↔ withoutBit qubit index < count := by
      omega
    have hother := mt (withoutBit_eq_iff hclear).mpr hsame
    rw [not_or] at hother
    rw [if_neg (Ne.symm hother.2), if_neg (Ne.symm hother.1)]
    simp only [hlt]

theorem combine?_eq (hsize : state.amplitudes.size = 1 <<< qubits) (hword : qubits < 64)
    (hqubit : qubit < qubits) :
    state.combine? qubit low high = some (state.combine qubit low high) := by
  have hpass : ∀ count ≤ state.amplitudes.size, ∃ amplitudes,
      (List.range count).foldlM (combineAt? (1 <<< qubit) low high) state.amplitudes =
        some amplitudes ∧ CombinedTo state qubit low high count amplitudes := by
    intro count hcount
    induction count with
    | zero => exact ⟨_, rfl, combinedTo_zero⟩
    | succ count ih =>
        obtain ⟨amplitudes, hamplitudes, hcombined⟩ := ih (Nat.le_of_succ_le hcount)
        rw [List.range_succ, List.foldlM_append, hamplitudes]
        cases hset : count.testBit qubit with
        | false =>
            obtain ⟨next, hnext, hcombined⟩ := hcombined.turn hsize hqubit hcount hset
            exact ⟨next, by simpa using hnext, hcombined⟩
        | true =>
            have hskip : ¬ count &&& 1 <<< qubit = 0 := by
              simp [and_mask_eq_zero_iff, hset]
            exact ⟨amplitudes, by simp [combineAt?, hskip], hcombined.skip hset⟩
  obtain ⟨amplitudes, hamplitudes, hcombined⟩ := hpass _ (Nat.le_refl _)
  have hall : amplitudes = (state.combine qubit low high).amplitudes := by
    have hcombine : (state.combine qubit low high).amplitudes.size = state.amplitudes.size :=
      size_rebuild
    refine Array.ext (hcombined.size.trans hcombine.symm) fun index hindex hindex' => ?_
    have hin : index < state.amplitudes.size := hcombined.size ▸ hindex
    have hvalue := hcombined.at_index index hin
    rw [if_pos (Nat.lt_of_le_of_lt withoutBit_le hin), Array.getElem?_eq_getElem hindex, amplitude,
      Array.getElem?_eq_getElem hindex', Option.getD_some] at hvalue
    exact Option.some.inj hvalue
  rw [combine?, mask?_eq (Nat.lt_trans hqubit hword), Option.bind_eq_bind, Option.bind_some,
    hamplitudes, hall]
  rfl

/-! ### Gates -/

theorem initial?_eq (hword : qubits < 64) :
    (initial? qubits : Option (Statevector α)) = some (initial qubits) := by
  have hpositive : 0 < (Array.replicate (1 <<< qubits) (Complex.zero : Complex α)).size := by
    rw [Array.size_replicate, Nat.one_shiftLeft]
    exact Nat.two_pow_pos qubits
  rw [initial?, mask?_eq hword, Option.bind_eq_bind, Option.bind_some, put?_eq hpositive, initial,
    Array.setIfInBounds_def, dif_pos hpositive]
  rfl

section Operands

variable (hsize : state.amplitudes.size = 1 <<< qubits) (hword : qubits < 64)
include hsize hword

omit [Scalar α] in
theorem controlledFlip?_eq {controls : List Nat}
    (hcontrols : ∀ control ∈ controls, control < qubits) (hqubit : qubit < qubits) :
    state.controlledFlip? controls qubit = some (state.controlledFlip controls qubit) := by
  have hwords : ∀ control ∈ controls, control < 64 :=
    fun control hcontrol => Nat.lt_trans (hcontrols control hcontrol) hword
  obtain ⟨mask, hmask, hset⟩ := masks?_eq hwords
  have hleads : (fun index => decide (index &&& mask = mask) &&
      decide (index &&& 1 <<< qubit = 0)) =
      fun index => controls.all index.testBit && !index.testBit qubit := by
    funext index
    simp only [hset, and_mask_eq_zero_iff, Bool.decide_eq_true, Bool.decide_eq_false]
  rw [controlledFlip?, hmask, mask?_eq (Nat.lt_trans hqubit hword)]
  simp only [Option.bind_eq_bind, Option.bind_some]
  rw [hleads]
  apply exchangePairs?_eq
  intro index hindex _
  rw [hsize] at hindex ⊢
  exact withBit_lt hqubit hindex

omit [Scalar α] in
theorem swapQubits?_eq {first second : Nat} (hfirst : first < qubits) (hsecond : second < qubits) :
    state.swapQubits? first second = some (state.swapQubits first second) := by
  have hleads : (fun index => decide (index &&& 1 <<< first ≠ 0) &&
      decide (index &&& 1 <<< second = 0)) =
      fun index => index.testBit first && !index.testBit second := by
    funext index
    simp only [ne_eq, and_mask_eq_zero_iff]
    cases index.testBit first <;> cases index.testBit second <;> rfl
  have hpartner : ∀ index < state.amplitudes.size,
      (index.testBit first && !index.testBit second) = true →
        (index &&& complement (1 <<< first)) ||| 1 <<< second =
          withBit second (flip first index) := by
    intro index hindex hleads
    rw [Bool.and_eq_true] at hleads
    have hindex : index < 2 ^ 64 := by
      rw [hsize, Nat.one_shiftLeft] at hindex
      exact Nat.lt_trans hindex (Nat.pow_lt_pow_right Nat.one_lt_two hword)
    rw [and_complement (Nat.lt_trans hfirst hword) hindex hleads.1]
    rfl
  rw [swapQubits?, mask?_eq (Nat.lt_trans hfirst hword), mask?_eq (Nat.lt_trans hsecond hword)]
  simp only [Option.bind_eq_bind, Option.bind_some]
  rw [hleads, swapQubits, ← exchangePairs_congr hpartner]
  apply exchangePairs?_eq
  intro index hindex hleads
  rw [hpartner index hindex hleads]
  rw [hsize] at hindex ⊢
  exact withBit_lt hsecond (flip_lt hfirst hindex)

omit hsize in
theorem shiftPhase?_eq (hqubit : qubit < qubits) (angle : Float) :
    state.shiftPhase? qubit angle = some (state.shiftPhase qubit angle) := by
  rw [shiftPhase?, mask?_eq (Nat.lt_trans hqubit hword)]
  rfl

/-- A gate with the operands it acts on never fails. -/
theorem applyGate?_eq {gate : Gate} {operands : List Nat}
    (hfits : (Instruction.gate gate operands).Fits)
    (hoperands : ∀ qubit ∈ operands, qubit < qubits) :
    state.applyGate? gate operands = some (state.apply gate operands) := by
  have hlength : operands.length = gate.arity := hfits.1
  cases gate with
  | h | y | rotateX | rotateY =>
      obtain ⟨qubit, rfl⟩ := List.length_eq_one_iff.mp hlength
      exact combine?_eq hsize hword (hoperands qubit (by simp))
  | z | s | sInverse | t | tInverse | phase =>
      obtain ⟨qubit, rfl⟩ := List.length_eq_one_iff.mp hlength
      exact shiftPhase?_eq hword (hoperands qubit (by simp)) _
  | rotateZ angle =>
      obtain ⟨qubit, rfl⟩ := List.length_eq_one_iff.mp hlength
      have hmask := mask?_eq (Nat.lt_trans (hoperands qubit (by simp)) hword)
      simp [applyGate?, rotateZ?, hmask, apply]
  | x =>
      obtain ⟨qubit, rfl⟩ := List.length_eq_one_iff.mp hlength
      exact controlledFlip?_eq hsize hword (List.forall_mem_nil _) (hoperands qubit (by simp))
  | controlledX =>
      obtain ⟨control, target, rfl⟩ := List.length_eq_two.mp hlength
      exact controlledFlip?_eq hsize hword
        (List.forall_mem_singleton.mpr (hoperands control (by simp))) (hoperands target (by simp))
  | controlledZ =>
      obtain ⟨first, second, rfl⟩ := List.length_eq_two.mp hlength
      obtain ⟨mask, hmask, -⟩ := masks?_eq fun qubit hqubit =>
        Nat.lt_trans (hoperands qubit hqubit) hword
      simp [applyGate?, controlledZ?, hmask, apply]
  | swap =>
      obtain ⟨first, second, rfl⟩ := List.length_eq_two.mp hlength
      exact swapQubits?_eq hsize hword (hoperands first (by simp)) (hoperands second (by simp))
  | doublyControlledX =>
      obtain ⟨first, second, target, rfl⟩ := List.length_eq_three.mp hlength
      exact controlledFlip?_eq hsize hword
        (by simpa using And.intro (hoperands first (by simp)) (hoperands second (by simp)))
        (hoperands target (by simp))

omit hsize in
theorem measure?_eq (hqubit : qubit < qubits) (drawn : α) :
    state.measure? qubit drawn = some (state.measure qubit drawn) := by
  rw [measure?, mask?_eq (Nat.lt_trans hqubit hword)]
  rfl

theorem reset?_eq (hqubit : qubit < qubits) (drawn : α) :
    state.reset? qubit drawn = some (state.reset qubit drawn) := by
  have hmeasured : (state.measure qubit drawn).2.amplitudes.size = 1 <<< qubits :=
    size_rebuild.trans hsize
  rw [reset?, measure?_eq hword hqubit, Option.bind_eq_bind, Option.bind_some, reset]
  dsimp only
  split_ifs
  · exact controlledFlip?_eq hmeasured hword (by simp) hqubit
  · rfl

end Operands

/-- No gate changes how many amplitudes there are. -/
theorem size_apply {gate : Gate} {operands : List Nat} :
    (state.apply gate operands).amplitudes.size = state.amplitudes.size := by
  unfold apply
  split
  all_goals first
    | rfl
    | exact size_rebuild
    | exact size_exchangePairs

theorem size_measure {drawn : α} :
    (state.measure qubit drawn).2.amplitudes.size = state.amplitudes.size :=
  size_rebuild

theorem size_reset {drawn : α} :
    (state.reset qubit drawn).amplitudes.size = state.amplitudes.size := by
  unfold reset
  dsimp only
  split_ifs
  · rw [size_controlledFlip, size_measure]
  · exact size_measure

end Statevector

end GateBench.Simulation
