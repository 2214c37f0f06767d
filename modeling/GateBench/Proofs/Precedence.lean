import GateBench.CommandLine.Execute
import GateBench.Proofs.Resolution

/-!
Where the settings of the configuration in force come from: each from its flag, else from its
variable of the environment, else from the file.  A setting that is overridden makes no difference,
with one exception: the timeout that a flag overrides must not be zero.
-/

namespace GateBench

open Message

namespace Config

/-! ### Variables of the environment -/

/-- What is wrong with the value of a variable, if anything is. -/
def faultOf {α : Type} (parse : String → Except String α) (value : String) : Option String :=
  match parse (Text.trim value) with
  | .ok _ => none
  | .error message => some message

/-- What a variable gives, if it has a value that parses. -/
def given? {α : Type} (environment : Environment) (name : String)
    (parse : String → Except String α) : Option α :=
  (environment name).bind fun value => (parse (Text.trim value)).toOption

/-- A number below a bound, or what is wrong with it in words. -/
def number (bound : Nat) (value : String) : Except String Nat :=
  (Number.parseUnsigned bound value).mapError (·.message)

/-- A number of sixty-four bits. -/
def word : String → Except String Nat :=
  number UInt64.size

/-- A number of thirty-two bits. -/
def halfWord : String → Except String Nat :=
  number UInt32.size

/-- How values are judged: the name of a variable, and what is wrong with a value of it. -/
structure Judgement where
  name : String
  fault? : String → Option String

/-- The judgements of all variables.  Any text is the path of a program. -/
def judgements : List Judgement :=
  [⟨"QBRIDGE_WORKER_MODE", faultOf WorkerMode.ofName⟩, ⟨"QBRIDGE_WORKER_PROGRAM", fun _ => none⟩,
    ⟨"QBRIDGE_TIMEOUT_MS", faultOf word⟩, ⟨"QBRIDGE_MAX_WORKERS", faultOf word⟩,
    ⟨"QBRIDGE_EVENT_BUFFER", faultOf word⟩, ⟨"QBRIDGE_MAX_QUBITS", faultOf word⟩,
    ⟨"QBRIDGE_MAX_STEPS", faultOf word⟩, ⟨"QBRIDGE_REFRESH_EVERY", faultOf halfWord⟩,
    ⟨"QBRIDGE_REFRESH_INTERVAL_MS", faultOf word⟩, ⟨"QBRIDGE_SHOTS", faultOf halfWord⟩,
    ⟨"QBRIDGE_PROFILE", faultOf Profile.ofName⟩]

/-- What is wrong with the value that a variable has, with the name of the variable. -/
def Judgement.error? (environment : Environment) (judgement : Judgement) : Option Error :=
  (environment judgement.name).bind fun value =>
    (judgement.fault? value).map (.environment judgement.name)

/-- Every variable that has a value parses. -/
def Parses (environment : Environment) : Prop :=
  ∀ judgement ∈ judgements, ∀ value, environment judgement.name = some value →
    judgement.fault? value = none

/-- The configuration in which each setting comes from its flag, else from its variable, else from
the file. -/
def inForce (environment : Environment) (flags : Flags) (stored : Config) : Config where
  worker :=
    { mode := (flags.mode <|> given? environment "QBRIDGE_WORKER_MODE" WorkerMode.ofName).getD
        stored.worker.mode
      program := environment "QBRIDGE_WORKER_PROGRAM" <|> stored.worker.program
      timeout := (flags.timeout <|> given? environment "QBRIDGE_TIMEOUT_MS" word).getD
        stored.worker.timeout
      maxWorkers := (given? environment "QBRIDGE_MAX_WORKERS" word).getD stored.worker.maxWorkers
      eventBuffer := (given? environment "QBRIDGE_EVENT_BUFFER" word).getD stored.worker.eventBuffer
      maxQubits := (given? environment "QBRIDGE_MAX_QUBITS" word).getD stored.worker.maxQubits
      maxSteps := (given? environment "QBRIDGE_MAX_STEPS" word).getD stored.worker.maxSteps }
  display :=
    { everyEvents := (given? environment "QBRIDGE_REFRESH_EVERY" halfWord).getD
        stored.display.everyEvents
      minInterval := (given? environment "QBRIDGE_REFRESH_INTERVAL_MS" word).getD
        stored.display.minInterval }
  defaultShots := (given? environment "QBRIDGE_SHOTS" halfWord).getD stored.defaultShots
  profile := (flags.profile <|> given? environment "QBRIDGE_PROFILE" Profile.ofName).getD
    stored.profile

/-! ### Overriding settings -/

/-- A configuration with the setting that a variable gives, if it gives one. -/
def settle (environment : Environment) (config : Config) (overriding : Variable) : Config :=
  ((environment overriding.name).bind fun value => (overriding.set value config).toOption).getD
    config

/-- A variable fails on a value exactly if its judgement finds a fault, and tells that fault. -/
structure IsJudgedBy (overriding : Variable) (judgement : Judgement) : Prop where
  name_eq : overriding.name = judgement.name
  set_eq (value : String) (config : Config) :
    (∃ message, judgement.fault? value = some message ∧
      overriding.set value config = .error message) ∨
    judgement.fault? value = none ∧ ∃ next, overriding.set value config = .ok next

theorem parsed_isJudgedBy {α : Type} (name : String) (parse : String → Except String α)
    (set : α → Config → Config) : IsJudgedBy (parsed name parse set) ⟨name, faultOf parse⟩ := by
  refine ⟨rfl, fun value config => ?_⟩
  cases hparse : parse (Text.trim value) with
  | error message =>
      exact .inl ⟨message, by simp only [faultOf, hparse], by simp only [parsed, hparse]; rfl⟩
  | ok setting =>
      exact .inr ⟨by simp only [faultOf, hparse], set setting config,
        by simp only [parsed, hparse]; rfl⟩

theorem numeric_isJudgedBy (name : String) (bound : Nat) (set : Nat → Config → Config) :
    IsJudgedBy (numeric name bound set) ⟨name, faultOf (number bound)⟩ :=
  parsed_isJudgedBy name (number bound) set

theorem workerNumeric_isJudgedBy (name : String) (set : Nat → WorkerSettings → WorkerSettings) :
    IsJudgedBy (workerNumeric name set) ⟨name, faultOf word⟩ :=
  numeric_isJudgedBy name UInt64.size _

theorem overridingVariables_judged :
    List.Forall₂ IsJudgedBy overridingVariables judgements := by
  refine .cons (parsed_isJudgedBy _ _ _) (.cons ⟨rfl, ?_⟩ ?_)
  · exact fun value config => .inr ⟨rfl, _, rfl⟩
  refine .cons (workerNumeric_isJudgedBy _ _) (.cons (workerNumeric_isJudgedBy _ _) ?_)
  refine .cons (workerNumeric_isJudgedBy _ _) (.cons (workerNumeric_isJudgedBy _ _) ?_)
  refine .cons (workerNumeric_isJudgedBy _ _) (.cons (numeric_isJudgedBy _ _ _) ?_)
  refine .cons (numeric_isJudgedBy _ _ _) (.cons (numeric_isJudgedBy _ _ _) ?_)
  exact .cons (parsed_isJudgedBy _ _ _) .nil

variable {environment : Environment} {overriding : Variable} {judgement : Judgement}

/-- Overriding one setting either settles it or fails as judged. -/
theorem IsJudgedBy.override_eq (hjudged : IsJudgedBy overriding judgement) (config : Config) :
    override environment config overriding =
      match judgement.error? environment with
      | some error => .error error
      | none => .ok (settle environment config overriding) := by
  obtain ⟨hname, hset⟩ := hjudged
  unfold override Judgement.error? settle
  rw [← hname]
  cases hvalue : environment overriding.name with
  | none => rfl
  | some value =>
      rcases hset value config with ⟨message, hfault, hfails⟩ | ⟨hfault, next, hgives⟩
      · simp only [Option.bind_some, hfault, hfails]
        rfl
      · simp only [Option.bind_some, hfault, hgives]
        rfl

/-- The first variable that does not parse decides; if all parse, all settings are settled. -/
theorem foldlM_override {overridings : List Variable} {judges : List Judgement}
    (hjudged : List.Forall₂ IsJudgedBy overridings judges) (config : Config) :
    overridings.foldlM (override environment) config =
      match judges.findSome? (·.error? environment) with
      | some error => .error error
      | none => .ok (overridings.foldl (settle environment) config) := by
  induction hjudged generalizing config with
  | nil => rfl
  | cons hfirst _ ih =>
      rw [List.foldlM_cons, hfirst.override_eq, List.findSome?_cons]
      cases Judgement.error? environment _ with
      | some error => rfl
      | none => exact ih _

/-- A parsed variable settles its setting alone. -/
theorem settle_parsed {α : Type} (name : String) (parse : String → Except String α)
    (get : Config → α) {set : α → Config → Config}
    (hget : ∀ config, set (get config) config = config) (config : Config) :
    settle environment config (parsed name parse set) =
      set ((given? environment name parse).getD (get config)) config := by
  unfold settle parsed given?
  cases environment name with
  | none => exact (hget config).symm
  | some value =>
      simp only [Option.bind_some]
      cases parse (Text.trim value) with
      | error message => exact (hget config).symm
      | ok setting => rfl

theorem settle_numeric (name : String) (bound : Nat) (get : Config → Nat)
    {set : Nat → Config → Config} (hget : ∀ config, set (get config) config = config)
    (config : Config) :
    settle environment config (numeric name bound set) =
      set ((given? environment name (number bound)).getD (get config)) config :=
  settle_parsed name (number bound) get hget config

theorem settle_workerNumeric (name : String) (get : WorkerSettings → Nat)
    {set : Nat → WorkerSettings → WorkerSettings}
    (hget : ∀ worker, set (get worker) worker = worker) (config : Config) :
    settle environment config (workerNumeric name set) =
      { config with
        worker := set ((given? environment name word).getD (get config.worker)) config.worker } :=
  settle_numeric name UInt64.size (fun config => get config.worker)
    (fun config => congrArg (fun worker => { config with worker }) (hget config.worker)) config

/-- The path of a program is taken as it is. -/
theorem settle_program (config : Config) :
    settle environment config ⟨"QBRIDGE_WORKER_PROGRAM", fun program config =>
        .ok { config with worker := { config.worker with program := some program } }⟩ =
      { config with
        worker := { config.worker with
          program := environment "QBRIDGE_WORKER_PROGRAM" <|> config.worker.program } } := by
  unfold settle
  cases environment "QBRIDGE_WORKER_PROGRAM" <;> rfl

/-- All variables together leave each setting to its variable, else to the file. -/
theorem foldl_settle (environment : Environment) (config : Config) :
    overridingVariables.foldl (settle environment) config = inForce environment {} config := by
  simp only [overridingVariables, List.foldl_cons, List.foldl_nil]
  rw [settle_parsed "QBRIDGE_WORKER_MODE" _ (·.worker.mode) fun _ => rfl, settle_program,
    settle_workerNumeric "QBRIDGE_TIMEOUT_MS" (·.timeout) fun _ => rfl,
    settle_workerNumeric "QBRIDGE_MAX_WORKERS" (·.maxWorkers) fun _ => rfl,
    settle_workerNumeric "QBRIDGE_EVENT_BUFFER" (·.eventBuffer) fun _ => rfl,
    settle_workerNumeric "QBRIDGE_MAX_QUBITS" (·.maxQubits) fun _ => rfl,
    settle_workerNumeric "QBRIDGE_MAX_STEPS" (·.maxSteps) fun _ => rfl,
    settle_numeric "QBRIDGE_REFRESH_EVERY" _ (·.display.everyEvents) fun _ => rfl,
    settle_numeric "QBRIDGE_REFRESH_INTERVAL_MS" _ (·.display.minInterval) fun _ => rfl,
    settle_numeric "QBRIDGE_SHOTS" _ (·.defaultShots) fun _ => rfl,
    settle_parsed "QBRIDGE_PROFILE" _ (·.profile) fun _ => rfl]
  rfl

theorem error?_eq_none_iff :
    judgement.error? environment = none ↔
      ∀ value, environment judgement.name = some value → judgement.fault? value = none := by
  unfold Judgement.error?
  cases environment judgement.name <;> simp

theorem parses_iff : Parses environment ↔
    judgements.findSome? (·.error? environment) = none := by
  rw [List.findSome?_eq_none_iff]
  exact forall₂_congr fun judgement _ => error?_eq_none_iff.symm

/-- Where all variables parse, each setting comes from its variable, else from the file. -/
theorem withEnvironment_of_parses (hparses : Parses environment) (config : Config) :
    config.withEnvironment environment = .ok (inForce environment {} config) := by
  rw [withEnvironment, foldlM_override overridingVariables_judged, parses_iff.mp hparses,
    foldl_settle]

/-- Where some do not, the first of them is told. -/
theorem withEnvironment_of_not_parses (hparses : ¬Parses environment) (config : Config) :
    ∃ judgement ∈ judgements, ∃ error,
      judgement.error? environment = some error ∧
        config.withEnvironment environment = .error error := by
  rw [parses_iff, ← ne_eq, Option.ne_none_iff_exists'] at hparses
  obtain ⟨error, hfirst⟩ := hparses
  obtain ⟨judgement, hmem, herror⟩ := List.exists_of_findSome?_eq_some hfirst
  refine ⟨judgement, hmem, error, herror, ?_⟩
  rw [withEnvironment, foldlM_override overridingVariables_judged, hfirst]

/-! ### Validation -/

/-- A configuration is without faults if no limit of it is zero and its program has a path. -/
theorem fault?_eq_none_iff {config : Config} :
    config.fault? = none ↔
      (config.worker.timeout ≠ 0 ∧ config.worker.maxWorkers ≠ 0 ∧ config.worker.eventBuffer ≠ 0 ∧
        config.worker.maxQubits ≠ 0 ∧ config.worker.maxSteps ≠ 0) ∧
      config.worker.program ≠ some "" := by
  have hzero : (positiveSettings config.worker).find? (·.2 = 0) = none ↔
      config.worker.timeout ≠ 0 ∧ config.worker.maxWorkers ≠ 0 ∧ config.worker.eventBuffer ≠ 0 ∧
        config.worker.maxQubits ≠ 0 ∧ config.worker.maxSteps ≠ 0 := by
    simp [positiveSettings]
  rw [← hzero]
  unfold fault?
  cases (positiveSettings config.worker).find? (·.2 = 0) <;> simp

theorem validate_eq_ok_iff {config result : Config} :
    config.validate = .ok result ↔ config.fault? = none ∧ config = result := by
  unfold validate
  cases config.fault? <;> simp

theorem withFlags_inForce (environment : Environment) (flags : Flags) (stored : Config) :
    (inForce environment {} stored).withFlags flags = inForce environment flags stored := by
  obtain ⟨timeout, profile, mode⟩ := flags
  cases timeout <;> cases profile <;> cases mode <;> rfl

/-- A flag overrides no limit but the timeout. -/
theorem fault?_beneath_iff (environment : Environment) (flags : Flags) (stored : Config)
    (hfault : (inForce environment flags stored).fault? = none) :
    (inForce environment {} stored).fault? = none ↔
      (inForce environment {} stored).worker.timeout ≠ 0 := by
  obtain ⟨⟨-, hrest⟩, hprogram⟩ := fault?_eq_none_iff.mp hfault
  rw [fault?_eq_none_iff]
  exact ⟨fun h => h.1.1, fun htimeout => ⟨⟨htimeout, hrest⟩, hprogram⟩⟩

/-- The stored configuration is validated with the variables over it, and again with the flags over
these. -/
theorem combine_eq_ok_iff (hparses : Parses environment) {flags : Flags} {stored config : Config} :
    stored.combine environment flags = .ok config ↔
      config = inForce environment flags stored ∧ config.fault? = none ∧
        (inForce environment {} stored).worker.timeout ≠ 0 := by
  unfold combine
  rw [withEnvironment_of_parses hparses]
  change ((inForce environment {} stored).validate >>= fun config =>
    (config.withFlags flags).validate) = .ok config ↔ _
  rw [Program.bind_eq_ok_iff]
  constructor
  · rintro ⟨beneath, hbeneath, hvalid⟩
    obtain ⟨hbelow, rfl⟩ := validate_eq_ok_iff.mp hbeneath
    rw [withFlags_inForce] at hvalid
    obtain ⟨hfault, rfl⟩ := validate_eq_ok_iff.mp hvalid
    exact ⟨rfl, hfault, (fault?_beneath_iff environment flags stored hfault).mp hbelow⟩
  · rintro ⟨rfl, hfault, htimeout⟩
    have hbelow := (fault?_beneath_iff environment flags stored hfault).mpr htimeout
    refine ⟨_, validate_eq_ok_iff.mpr ⟨hbelow, rfl⟩, ?_⟩
    rw [withFlags_inForce]
    exact validate_eq_ok_iff.mpr ⟨hfault, rfl⟩

end Config

/-! ### Commands -/

namespace CommandLine

open Config

/-- The configuration in force of a command, over what its file stores.  If all variables parse, it
is the one in which each setting comes from its flag, else from its variable, else from the file, as
long as this has no faults and the timeout beneath the flags is not zero; otherwise there is none.
If some variable does not parse, the failure tells of such a one. -/
theorem config_in_force (host : Host) (shared : SharedOptions) {file : Config}
    (hstored : stored host.files host.home shared.configPath = .ok file) :
    (Parses host.environment → ∀ config, host.config shared = .ok config ↔
      config = inForce host.environment shared.flags file ∧ config.validate = .ok config ∧
        (given? host.environment "QBRIDGE_TIMEOUT_MS" word).getD file.worker.timeout ≠ 0) ∧
    (¬Parses host.environment → ∃ judgement ∈ judgements, ∃ value message,
      host.environment judgement.name = some value ∧ judgement.fault? value = some message ∧
        host.config shared = .error (Error.environment judgement.name message).message) := by
  have hcombined : host.config shared =
      (file.combine host.environment shared.flags).mapError (·.message) := by
    rw [Host.config, hstored]
    rfl
  rw [hcombined]
  constructor
  · intro hparses config
    rw [Program.mapError_eq_ok_iff, combine_eq_ok_iff hparses, validate_eq_ok_iff,
      and_iff_left rfl]
    rfl
  · intro hparses
    obtain ⟨judgement, hmem, error, herror, hfails⟩ := withEnvironment_of_not_parses hparses file
    obtain ⟨value, hvalue, hfault⟩ := Option.bind_eq_some_iff.mp herror
    obtain ⟨message, hmessage, rfl⟩ := Option.map_eq_some_iff.mp hfault
    refine ⟨judgement, hmem, value, message, hvalue, hmessage, ?_⟩
    rw [combine, hfails]
    rfl

/-- An environment that sets the timeout to zero. -/
def zeroTimeout : Environment := fun name =>
  if name = "QBRIDGE_TIMEOUT_MS" then some "0" else none

/-- A host of that environment, without files. -/
def hurried : Host where
  files := fun _ => .missing
  environment := zeroTimeout

/-- A flag for another timeout does not help, though the configuration with it has no faults. -/
theorem config_in_force_hurried :
    stored hurried.files hurried.home none = .ok {} ∧ Parses zeroTimeout ∧
      (inForce zeroTimeout { timeout := some 1500 } {}).validate =
        .ok { worker := { timeout := 1500 } } ∧
      ∀ config, hurried.config { flags := { timeout := some 1500 } } ≠ .ok config := by
  have hstored : stored hurried.files hurried.home none = .ok {} := rfl
  have hparses : Parses zeroTimeout := parses_iff.mpr (by rfl)
  have hzero : given? zeroTimeout "QBRIDGE_TIMEOUT_MS" word = some 0 := by rfl
  obtain ⟨hlaw, -⟩ := config_in_force hurried { flags := { timeout := some 1500 } } hstored
  refine ⟨hstored, hparses, rfl, fun config hconfig => ?_⟩
  obtain ⟨-, -, htimeout⟩ := (hlaw hparses config).mp hconfig
  exact htimeout (by rw [show hurried.environment = zeroTimeout from rfl, hzero]; rfl)

end CommandLine

end GateBench
