import GateBench.Config.Basic
import GateBench.Simulation.StatevectorEngine
import GateBench.Worker.Pipe

/-!
The workers that a configuration asks for.
-/

namespace GateBench.CommandLine

open GateBench.Simulation GateBench.Worker

/-- Workers of some kind. -/
structure Workforce where
  Kind : Type
  transport : Transport Kind Unit

/-- The engine of a configuration with a seed. -/
def engineOf (config : Config) (seed : UInt64) : Engine :=
  let limits := { maxQubits := config.worker.maxQubits, maxSteps := config.worker.maxSteps }
  StatevectorEngine.toEngine { limits, seed }

/-- The arguments of a program that is to act as a worker. -/
def workerArguments (config : Config) (seed : Option Nat) : List String :=
  ["worker", "--max-qubits", toString config.worker.maxQubits, "--max-steps",
    toString config.worker.maxSteps] ++
    seed.elim [] fun seed => ["--seed", toString seed]

/-- Workers in words, unless they are processes of this program. -/
def workforceText? (config : Config) (seed : Option Nat) : Option String :=
  match config.worker.mode with
  | .inProcess => some ("in-process engine '" ++ (engineOf config 0).name ++ "'")
  | .childProcess =>
    config.worker.program.map fun program =>
      " ".intercalate (program :: workerArguments config seed)

/-- The workers of a configuration.  A worker in a process of its own serves requests as this
program does; no other program can be started. -/
def workforceOf [Message.JsonWording] (config : Config) (seed : UInt64) : Workforce :=
  let engine := engineOf config seed
  match config.worker.mode, config.worker.program with
  | .inProcess, _ => ⟨LocalWorker, localWorkers engine⟩
  | .childProcess, none =>
    ⟨PipeWorker LocalWorker, pipeWorkers servingChildWithin (.ok { engine })⟩
  | .childProcess, some program =>
    ⟨PipeWorker LocalWorker, pipeWorkers servingChildWithin (.error (noSuchProgram program))⟩

end GateBench.CommandLine
