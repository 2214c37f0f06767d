import GateBench.Program.Basic
import GateBench.Simulation.Scalar
import GateBench.Syntax.Tree

/-!
Quantum states as vectors of amplitudes, one for every assignment of bits to the qubits: bit `q` of
an index is the value of qubit `q`.  Gates that permute amplitudes exchange them in place; the
others compute the new amplitudes from the old ones.
-/

namespace GateBench.Simulation

open GateBench.Program

/-- The amplitudes of a state, by index. -/
structure Statevector (α : Type) where
  amplitudes : Array (Complex α)

namespace Statevector

variable {α : Type} [Scalar α]

/-- Whether there can be a state of so many qubits.  An amplitude takes sixteen bytes, and no array
has `2 ^ 63` bytes or more. -/
def canHold (qubits : Nat) : Bool :=
  qubits < 59

/-- The state in which every qubit is zero.  A run only builds it where it can be held. -/
def initial (qubits : Nat) : Statevector α :=
  ⟨(Array.replicate (1 <<< qubits) Complex.zero).setIfInBounds 0 Complex.one⟩

/-- The amplitude at an index. -/
def amplitude (state : Statevector α) (index : Nat) : Complex α :=
  state.amplitudes[index]?.getD Complex.zero

/-- The state of the same size with a new amplitude at every index. -/
@[specialize]
def rebuild (state : Statevector α) (amplitude : Nat → Complex α) : Statevector α :=
  ⟨Array.ofFn fun index : Fin state.amplitudes.size => amplitude index⟩

/-- The index that differs in the bit of one qubit. -/
def flip (qubit index : Nat) : Nat :=
  index ^^^ (1 <<< qubit)

/-- The index with the bit of a qubit set. -/
def withBit (qubit index : Nat) : Nat :=
  index ||| (1 <<< qubit)

/-- Exchange amplitudes in place, in one pass over the indices: each index that leads a pair
exchanges its amplitude with the one at its partner. -/
@[specialize]
def exchangePairs (state : Statevector α) (leads : Nat → Bool) (partner : Nat → Nat) :
    Statevector α :=
  ⟨(List.range state.amplitudes.size).foldl
    (fun amplitudes index =>
      if leads index then amplitudes.swapIfInBounds index (partner index) else amplitudes)
    state.amplitudes⟩

/-- Combine the amplitudes of each pair of indices that differ in one qubit: `low` gives the new
amplitude where its bit is clear, `high` where it is set. -/
@[specialize]
def combine (state : Statevector α) (qubit : Nat)
    (low high : Complex α → Complex α → Complex α) : Statevector α :=
  state.rebuild fun index =>
    if index.testBit qubit then
      high (state.amplitude (flip qubit index)) (state.amplitude index)
    else low (state.amplitude index) (state.amplitude (flip qubit index))

/-- Multiply the amplitudes where the bit of a qubit is set. -/
def shiftPhase (state : Statevector α) (qubit : Nat) (angle : Float) : Statevector α :=
  let factor : Complex α := .unit angle
  state.rebuild fun index =>
    let amplitude := state.amplitude index
    if index.testBit qubit then amplitude * factor else amplitude

/-- The Hadamard gate. -/
def hadamard (state : Statevector α) (qubit : Nat) : Statevector α :=
  let factor : α := Scalar.ofFloat (1.0 / Float.sqrt 2.0)
  state.combine qubit (fun a b => .scale factor (a + b)) (fun a b => .scale factor (a - b))

/-- The Pauli Y gate. -/
def pauliY (state : Statevector α) (qubit : Nat) : Statevector α :=
  let i : Complex α := ⟨Scalar.zero, Scalar.one⟩
  state.combine qubit (fun _ b => -i * b) (fun a _ => i * a)

/-- Rotation about the X axis. -/
def rotateX (state : Statevector α) (qubit : Nat) (angle : Float) : Statevector α :=
  let half := angle / 2.0
  let c : α := Scalar.ofFloat half.cos
  let s : Complex α := ⟨Scalar.zero, Scalar.ofFloat (-half.sin)⟩
  state.combine qubit (fun a b => .scale c a + s * b) (fun a b => s * a + .scale c b)

/-- Rotation about the Y axis. -/
def rotateY (state : Statevector α) (qubit : Nat) (angle : Float) : Statevector α :=
  let half := angle / 2.0
  let c : α := Scalar.ofFloat half.cos
  let s : α := Scalar.ofFloat half.sin
  state.combine qubit (fun a b => .scale c a - .scale s b) (fun a b => .scale s a + .scale c b)

/-- Rotation about the Z axis. -/
def rotateZ (state : Statevector α) (qubit : Nat) (angle : Float) : Statevector α :=
  let clear : Complex α := .unit (-angle / 2.0)
  let set : Complex α := .unit (angle / 2.0)
  state.rebuild fun index =>
    state.amplitude index * (if index.testBit qubit then set else clear)

/-- Negate the amplitudes where the bits of both qubits are set. -/
def controlledZ (state : Statevector α) (first second : Nat) : Statevector α :=
  state.rebuild fun index =>
    let amplitude := state.amplitude index
    if index.testBit first && index.testBit second then -amplitude else amplitude

/-- Flip a qubit where all controls are set.  Of the two indices of a pair the one leads in which
the bit of the qubit is clear. -/
def controlledFlip (state : Statevector α) (controls : List Nat) (qubit : Nat) : Statevector α :=
  state.exchangePairs (fun index => controls.all index.testBit && !index.testBit qubit)
    (withBit qubit)

/-- Exchange two qubits.  The index leads in which the bit of the first is set and that of the
second is clear. -/
def swapQubits (state : Statevector α) (first second : Nat) : Statevector α :=
  state.exchangePairs (fun index => index.testBit first && !index.testBit second)
    fun index => withBit second (flip first index)

/-- Apply a gate to its qubits.  A list of qubits that does not fit the gate leaves the state as it
is; compiled programs have none. -/
def apply (state : Statevector α) : Gate → List Nat → Statevector α
  | .h, [q] => state.hadamard q
  | .x, [q] => state.controlledFlip [] q
  | .y, [q] => state.pauliY q
  | .z, [q] => state.shiftPhase q Syntax.piValue
  | .s, [q] => state.shiftPhase q (Syntax.piValue / 2.0)
  | .sInverse, [q] => state.shiftPhase q (-Syntax.piValue / 2.0)
  | .t, [q] => state.shiftPhase q (Syntax.piValue / 4.0)
  | .tInverse, [q] => state.shiftPhase q (-Syntax.piValue / 4.0)
  | .rotateX angle, [q] => state.rotateX q angle
  | .rotateY angle, [q] => state.rotateY q angle
  | .rotateZ angle, [q] => state.rotateZ q angle
  | .phase angle, [q] => state.shiftPhase q angle
  | .controlledX, [control, target] => state.controlledFlip [control] target
  | .controlledZ, [control, target] => state.controlledZ control target
  | .swap, [first, second] => state.swapQubits first second
  | .doublyControlledX, [first, second, target] => state.controlledFlip [first, second] target
  | _, _ => state

/-- The probability of reading one on a qubit: the squared magnitudes where its bit is set, added
in the order of their indices. -/
def probabilityOne (state : Statevector α) (qubit : Nat) : α :=
  (List.range state.amplitudes.size).foldl
    (fun sum index =>
      if index.testBit qubit then sum + (state.amplitude index).normSquared else sum)
    Scalar.zero

/-- Keep what agrees with an outcome, divided by the square root of its probability unless that is
not above zero. -/
def collapse (state : Statevector α) (qubit : Nat) (outcome : Bool) (probability : α) :
    Statevector α :=
  let norm := Scalar.sqrt probability
  let positive := Scalar.less (Scalar.zero : α) norm
  state.rebuild fun index =>
    if index.testBit qubit = outcome then
      if positive then (state.amplitude index).shrink norm else state.amplitude index
    else Complex.zero

/-- Measure a qubit with a drawn number: it reads one if the number is below the probability of
one. -/
def measure (state : Statevector α) (qubit : Nat) (drawn : α) : Bool × Statevector α :=
  let one := state.probabilityOne qubit
  let outcome := Scalar.less drawn one
  (outcome, state.collapse qubit outcome (if outcome then one else Scalar.one - one))

/-- Measure a qubit, and flip it if it reads one. -/
def reset (state : Statevector α) (qubit : Nat) (drawn : α) : Statevector α :=
  let (outcome, state) := state.measure qubit drawn
  if outcome then state.controlledFlip [] qubit else state

end Statevector

end GateBench.Simulation
