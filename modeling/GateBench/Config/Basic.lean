import GateBench.Histogram.Aggregator
import GateBench.Message.Request
import GateBench.Text.Lowercase
import GateBench.Worker.Local

/-!
The configuration of commands: how workers are run, how often displays are refreshed, and what a
command assumes that does not say.
-/

namespace GateBench

open GateBench.Message

/-- Where workers run: within this process, or each in a child process. -/
inductive WorkerMode where
  | inProcess
  | childProcess
deriving DecidableEq, Repr

namespace WorkerMode

/-- The name of a mode. -/
def text : WorkerMode → String
  | .inProcess => "local"
  | .childProcess => "process"

/-- All modes. -/
def all : List WorkerMode :=
  [.inProcess, .childProcess]

/-- A mode by its name in any case.  The failure is told in words. -/
def ofName (name : String) : Except String WorkerMode :=
  match all.find? (·.text = Text.lowercase name) with
  | some mode => .ok mode
  | none =>
    .error ("Unknown worker mode: '" ++ Text.lowercase name ++ "'. Available: local, process")

end WorkerMode

namespace Config

/-- How workers are run.  Without a program, child processes run this one; the timeout is in
milliseconds. -/
structure WorkerSettings where
  mode : WorkerMode := .inProcess
  program : Option String := none
  timeout : Nat := 300000
  maxWorkers : Nat := 2
  eventBuffer : Nat := Worker.defaultEventBuffer
  maxQubits : Nat := 20
  maxSteps : Nat := 100000
deriving DecidableEq, Repr

end Config

/-- A configuration. -/
structure Config where
  worker : Config.WorkerSettings := {}
  display : RefreshPolicy := {}
  defaultShots : Nat := 100
  profile : Profile := .unrestricted
deriving DecidableEq, Repr

namespace Config

/-- What keeps a configuration from being used. -/
inductive Fault where
  | zero (setting : String)
  | emptyProgram
deriving DecidableEq, Repr

/-- A fault in words. -/
def Fault.message : Fault → String
  | .zero setting => setting ++ " must be greater than 0"
  | .emptyProgram => "worker program must not be empty; omit it to use this binary"

/-- The settings that must not be zero, in the order in which they are checked. -/
def positiveSettings (worker : WorkerSettings) : List (String × Nat) :=
  [("timeout_ms", worker.timeout), ("max_workers", worker.maxWorkers),
    ("event_buffer", worker.eventBuffer), ("max_qubits", worker.maxQubits),
    ("max_steps", worker.maxSteps)]

/-- The first fault of a configuration. -/
def fault? (config : Config) : Option Fault :=
  match (positiveSettings config.worker).find? (·.2 = 0) with
  | some (setting, _) => some (.zero setting)
  | none => if config.worker.program = some "" then some .emptyProgram else none

/-- Why no configuration could be made. -/
inductive Error where
  | unreadable (path reason : String)
  | malformed (path : String)
  | environment (name message : String)
  | invalid (fault : Fault)
deriving DecidableEq, Repr

/-- A failure in words. -/
def Error.message : Error → String
  | .unreadable path reason => "Failed to read " ++ path ++ ": " ++ reason
  | .malformed path => "Failed to parse " ++ path
  | .environment name message => "Invalid value for " ++ name ++ ": " ++ message
  | .invalid fault => "Invalid configuration: " ++ fault.message

/-- A configuration without faults. -/
def validate (config : Config) : Except Error Config :=
  match config.fault? with
  | some fault => .error (.invalid fault)
  | none => .ok config

end Config

end GateBench
