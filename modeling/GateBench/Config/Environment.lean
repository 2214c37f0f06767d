import GateBench.Config.Basic
import GateBench.Message.ProfileName
import GateBench.Number.Unsigned
import GateBench.Text.Blank

/-!
Variables of the environment that override settings.  They are looked at in a fixed order, and the
first that does not parse is an error.
-/

namespace GateBench.Config

open GateBench.Message

/-- A variable of the environment: its name, and the configuration with the setting that it
gives. -/
structure Variable where
  name : String
  set : String → Config → Except String Config

/-- A variable whose value is trimmed and parsed. -/
def parsed {α : Type} (name : String) (parse : String → Except String α)
    (set : α → Config → Config) : Variable :=
  ⟨name, fun value config => (parse (Text.trim value)).map fun setting => set setting config⟩

/-- A variable whose value is a number below a bound. -/
def numeric (name : String) (bound : Nat) (set : Nat → Config → Config) : Variable :=
  parsed name (fun value => (Number.parseUnsigned bound value).mapError (·.message)) set

/-- A variable whose value is a number of the worker's settings. -/
def workerNumeric (name : String) (set : Nat → WorkerSettings → WorkerSettings) : Variable :=
  numeric name UInt64.size fun value config => { config with worker := set value config.worker }

/-- The variables, in the order in which they are looked at. -/
def overridingVariables : List Variable :=
  [parsed "QBRIDGE_WORKER_MODE" WorkerMode.ofName fun mode config =>
      { config with worker := { config.worker with mode } },
    ⟨"QBRIDGE_WORKER_PROGRAM", fun program config =>
      .ok { config with worker := { config.worker with program := some program } }⟩,
    workerNumeric "QBRIDGE_TIMEOUT_MS" fun timeout worker => { worker with timeout },
    workerNumeric "QBRIDGE_MAX_WORKERS" fun maxWorkers worker => { worker with maxWorkers },
    workerNumeric "QBRIDGE_EVENT_BUFFER" fun eventBuffer worker => { worker with eventBuffer },
    workerNumeric "QBRIDGE_MAX_QUBITS" fun maxQubits worker => { worker with maxQubits },
    workerNumeric "QBRIDGE_MAX_STEPS" fun maxSteps worker => { worker with maxSteps },
    numeric "QBRIDGE_REFRESH_EVERY" UInt32.size fun everyEvents config =>
      { config with display := { config.display with everyEvents } },
    numeric "QBRIDGE_REFRESH_INTERVAL_MS" UInt64.size fun minInterval config =>
      { config with display := { config.display with minInterval } },
    numeric "QBRIDGE_SHOTS" UInt32.size fun defaultShots config => { config with defaultShots },
    parsed "QBRIDGE_PROFILE" Profile.ofName fun profile config => { config with profile }]

/-- A value of the environment by name. -/
abbrev Environment := String → Option String

/-- Override the setting of one variable, if it has a value. -/
def override (environment : Environment) (config : Config) (overriding : Variable) :
    Except Error Config :=
  match environment overriding.name with
  | none => .ok config
  | some value => (overriding.set value config).mapError (.environment overriding.name)

/-- Override all settings whose variables have values. -/
def withEnvironment (environment : Environment) (config : Config) : Except Error Config :=
  overridingVariables.foldlM (override environment) config

end GateBench.Config
