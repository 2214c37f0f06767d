import GateBench.Engine
import GateBench.Program.BaseProfile
import GateBench.Program.Compile
import GateBench.Program.Diagram
import GateBench.Program.Select
import GateBench.Simulation.Random
import GateBench.Simulation.Shots

/-!
The engine that simulates statevectors.  It draws from one generator for each request, seeded anew.
-/

namespace GateBench.Simulation

open GateBench.Message GateBench.Program

/-- The limits of an engine, the seed of its draws, and the words in which the runtime reports that
it broke down. -/
structure StatevectorEngine where
  limits : Limits := {}
  seed : UInt64 := 0
  breakdown : String := "the engine broke down"

/-- A number of errors in words. -/
def errorCount (count : Nat) : String :=
  toString count ++ if count = 1 then " error" else " errors"

/-- The fault of sources that do not compile. -/
def compileFault (errors : List ProgramError) : WorkerFault :=
  ⟨.compile, "Compilation failed with " ++ errorCount errors.length, errors.map (·.diagnostic)⟩

/-- The fault of a choice of operation that failed. -/
def choiceFault (error : ProgramError) : WorkerFault :=
  ⟨.compile, error.message, [error.diagnostic]⟩

/-- The fault of an operation that its profile refuses, named after the first violation. -/
def profileFault (first : ProgramError) (violations : List ProgramError) : WorkerFault :=
  ⟨.profile, first.message, violations.map (·.diagnostic)⟩

/-- The fault of a run that was stopped after some of its shots. -/
def cancelFault (done shots : Nat) : WorkerFault :=
  ⟨.cancelled, "Run cancelled after " ++ toString done ++ " of " ++ toString shots ++ " shots", []⟩

/-- The reply to a run of shots that ended this way. -/
def RunEnd.reply (shots : Nat) : RunEnd → Response
  | .completed done => .runComplete done
  | .stopped done => .failed (cancelFault done shots)

/-- A program, and an operation of it that its profile allows. -/
structure Selection where
  program : Program
  operation : Nat

namespace StatevectorEngine

/-- Compile sources and choose an operation. -/
def select (engine : StatevectorEngine) (sources : List Source) (profile : Profile)
    (choose : Program → Except ProgramError Nat) : Except WorkerFault Selection := do
  let program ← (compile sources engine.limits).mapError compileFault
  let operation ← (choose program).mapError choiceFault
  match program.violations operation profile with
  | [] => return ⟨program, operation⟩
  | first :: others => throw (profileFault first (first :: others))

/-- Check sources: what is wrong with them, or else what the profile refuses in their entry points,
and all operations. -/
def check (engine : StatevectorEngine) (sources : List Source) (profile : Profile) : Response :=
  match compile sources engine.limits with
  | .error errors => .checked (errors.map (·.diagnostic)) []
  | .ok program =>
    let entries := program.numbersWhere (·.isEntry)
    let violations := entries.flatMap fun operation => program.violations operation profile
    .checked (violations.map (·.diagnostic)) program.summaries

/-- Run shots of an entry point with the draws of a generator. -/
def runWith (engine : StatevectorEngine) (generator : Generator) (sources : List Source)
    (entry : Option String) (shots : Nat) (profile : Profile) : Dialogue Response :=
  match engine.select sources profile (·.entry entry) with
  | .error fault => .done (.failed fault)
  | .ok ⟨program, operation⟩ =>
    let circuit := Circuit.ofProgram program operation
    (circuit.run Generator.draw shots generator).map fun (ending, _) => ending.reply shots

/-- Run shots of an entry point. -/
def run (engine : StatevectorEngine) (sources : List Source) (entry : Option String)
    (shots : Nat) (profile : Profile) : Dialogue Response :=
  engine.runWith (.ofSeed engine.seed) sources entry shots profile

/-- Draw the circuit of an operation, or of the entry point. -/
def circuit (engine : StatevectorEngine) (sources : List Source) (profile : Profile)
    (operation : Option QualifiedName) : Response :=
  let choose (program : Program) : Except ProgramError Nat :=
    match operation with
    | some name => program.find name
    | none => program.entry none
  match engine.select sources profile choose with
  | .error fault => .failed fault
  | .ok ⟨program, operation⟩ => .circuit (program.diagram operation)

/-- Serve a request with the draws of a generator.  An engine that was given no seed has a generator
that nobody chose. -/
def serveWith (engine : StatevectorEngine) (generator : Generator) : Request → Dialogue Response
  | .check sources profile => .done (engine.check sources profile)
  | .run sources entry shots profile => engine.runWith generator sources entry shots profile
  | .circuit sources profile operation => .done (engine.circuit sources profile operation)

/-- Serve a request. -/
def serve (engine : StatevectorEngine) (request : Request) : Dialogue Response :=
  engine.serveWith (.ofSeed engine.seed) request

/-- Whether a request breaks the engine down: there can be no state for the shots of its run. -/
def breaksDown (engine : StatevectorEngine) : Request → Bool
  | .run sources entry shots profile =>
    match engine.select sources profile (·.entry entry) with
    | .error _ => false
    | .ok ⟨program, operation⟩ =>
      0 < shots && !Statevector.canHold (Circuit.ofProgram program operation).qubits
  | .check .. | .circuit .. => false

/-- The engine as a host sees it.  A request that breaks it down does so in its first shot. -/
def toEngine (engine : StatevectorEngine) : Engine :=
  ⟨"statevector", fun request =>
    if engine.breaksDown request then (engine.serve request).failing engine.breakdown
    else (engine.serve request).map .ok⟩

end StatevectorEngine

end GateBench.Simulation
