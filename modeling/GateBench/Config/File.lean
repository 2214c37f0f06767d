import GateBench.Config.Basic
import GateBench.Text.Blank
import GateBench.Yaml.Decode
import GateBench.Yaml.Printer

/-!
Configurations in the YAML format.  Settings that a file does not give have their defaults.
-/

namespace GateBench.Config

open GateBench.Message GateBench.Yaml

/-- The modes by name. -/
def namedModes : List (String × WorkerMode) :=
  WorkerMode.all.map fun mode => (mode.text, mode)

/-- The profiles by name. -/
def namedProfiles : List (String × Profile) :=
  [Profile.base, .unrestricted].map fun profile => (profile.text, profile)

/-- Read how workers are run. -/
def workerOfYaml? (document : Document) (node : Node) : Option WorkerSettings := do
  let fields ← document.fields?
    ["mode", "program", "timeout_ms", "max_workers", "event_buffer", "max_qubits", "max_steps"] node
  let default : WorkerSettings := {}
  let number (name : String) (value : Nat) := fields.withDefault name value (·.number? UInt64.size)
  return {
    mode := ← fields.withDefault "mode" default.mode (·.choice? namedModes)
    program := ← fields.withDefault "program" default.program Document.optionalText?
    timeout := ← number "timeout_ms" default.timeout
    maxWorkers := ← number "max_workers" default.maxWorkers
    eventBuffer := ← number "event_buffer" default.eventBuffer
    maxQubits := ← number "max_qubits" default.maxQubits
    maxSteps := ← number "max_steps" default.maxSteps }

/-- Read how often displays are refreshed. -/
def displayOfYaml? (document : Document) (node : Node) : Option RefreshPolicy := do
  let fields ← document.fields? ["refresh_every", "refresh_interval_ms"] node
  let default : RefreshPolicy := {}
  return {
    everyEvents := ← fields.withDefault "refresh_every" default.everyEvents (·.number? UInt32.size)
    minInterval := ← fields.withDefault "refresh_interval_ms" default.minInterval
      (·.number? UInt64.size) }

/-- Read a configuration.  A blank text gives the defaults. -/
def ofYaml? (text : String) : Option Config := do
  let default : Config := {}
  if Text.trim text = "" then return default
  let document ← Yaml.read? text
  let fields ← document.fields? ["worker", "display", "default_shots", "profile"] document.root
  return {
    worker := ← fields.withDefault "worker" default.worker workerOfYaml?
    display := ← fields.withDefault "display" default.display displayOfYaml?
    defaultShots := ← fields.withDefault "default_shots" default.defaultShots
      (·.number? UInt32.size)
    profile := ← fields.withDefault "profile" default.profile (·.choice? namedProfiles) }

/-- Read the configuration in a file. -/
def ofFile (path text : String) : Except Error Config :=
  match ofYaml? text with
  | some config => .ok config
  | none => .error (.malformed path)

/-- Write a configuration. -/
def toYaml (config : Config) : String :=
  let number (level : Nat) (name : String) (value : Nat) := memberLine level name (toString value)
  let worker := config.worker
  String.join
    [mappingLine 0 "worker",
      textLine 1 "mode" worker.mode.text,
      (worker.program.map (textLine 1 "program")).getD "",
      number 1 "timeout_ms" worker.timeout,
      number 1 "max_workers" worker.maxWorkers,
      number 1 "event_buffer" worker.eventBuffer,
      number 1 "max_qubits" worker.maxQubits,
      number 1 "max_steps" worker.maxSteps,
      mappingLine 0 "display",
      number 1 "refresh_every" config.display.everyEvents,
      number 1 "refresh_interval_ms" config.display.minInterval,
      number 0 "default_shots" config.defaultShots,
      textLine 0 "profile" config.profile.text]

end GateBench.Config
