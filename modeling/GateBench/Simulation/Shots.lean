import GateBench.Dialogue
import GateBench.Program.Flatten
import GateBench.Simulation.Statevector

/-!
Running an operation shot by shot.
-/

namespace GateBench.Simulation

open GateBench.Program

/-- A way to draw numbers from a source. -/
abbrev Draw (σ α : Type) := σ → α × σ

/-- A shot under way: its state, the bits measured so far, latest first, and the source of draws. -/
structure ShotState (σ α : Type) where
  state : Statevector α
  bits : List Bool
  source : σ

variable {σ α : Type} [Scalar α]

/-- Perform one instruction.  A measurement and a reset draw one number each, a gate none. -/
def ShotState.perform (draw : Draw σ α) (shot : ShotState σ α) : Instruction → ShotState σ α
  | .gate gate qubits => { shot with state := shot.state.apply gate qubits }
  | .measure qubit =>
    let (drawn, source) := draw shot.source
    let (bit, state) := shot.state.measure qubit drawn
    ⟨state, bit :: shot.bits, source⟩
  | .reset qubit =>
    let (drawn, source) := draw shot.source
    { shot with state := shot.state.reset qubit drawn, source }

/-- The label of a shot that measured nothing. -/
def emptyLabel : String :=
  "()"

/-- The label of measured bits in the order of their measurement. -/
def labelOf (bits : List Bool) : String :=
  if bits = [] then emptyLabel
  else String.ofList (bits.map fun bit => if bit then '1' else '0')

/-- What is run: instructions in order, and the number of qubits. -/
structure Circuit where
  steps : List Instruction
  qubits : Nat

/-- The circuit of an operation. -/
def Circuit.ofProgram (program : Program) (number : Nat) : Circuit :=
  ⟨(program.flatten number).map (·.instruction),
    (program.operations[number]?.map (·.figures.qubits)).getD 0⟩

/-- Run one shot from the state of zeros: its label, and the source behind its draws. -/
def Circuit.shot (circuit : Circuit) (draw : Draw σ α) (source : σ) : String × σ :=
  let shot := circuit.steps.foldl (ShotState.perform draw) ⟨.initial circuit.qubits, [], source⟩
  (labelOf shot.bits.reverse, shot.source)

/-- How a run ended: with all shots, or stopped after some. -/
inductive RunEnd where
  | completed (shots : Nat)
  | stopped (shots : Nat)
deriving DecidableEq, Repr

/-- The shots from `index` on, `remaining` of them.  Before every shot the run asks whether to go
on; it tells every outcome, and stops when nobody listens.  The result is how it ended, with the
source behind all draws. -/
def Circuit.runFrom (circuit : Circuit) (draw : Draw σ α) (index : Nat) :
    (remaining : Nat) → σ → Dialogue (RunEnd × σ)
  | 0, source => .done (.completed index, source)
  | remaining + 1, source =>
    .ask fun wanted =>
      if wanted then
        let (label, source) := circuit.shot draw source
        .tell ⟨label, index⟩ fun listening =>
          if listening then circuit.runFrom draw (index + 1) remaining source
          else .done (.stopped (index + 1), source)
      else .done (.stopped index, source)

/-- Run shots until all are done or the run is stopped. -/
def Circuit.run (circuit : Circuit) (draw : Draw σ α) (shots : Nat) (source : σ) :
    Dialogue (RunEnd × σ) :=
  circuit.runFrom draw 0 shots source

end GateBench.Simulation
