import GateBench.CommandLine.Switch
import GateBench.Config.Load

/-!
What a command line asks for: one of the commands, with options of its own and options that all
commands share.  The shared options may stand before the command or behind it.
-/

namespace GateBench.CommandLine

open GateBench.Message

/-- The options that all commands share. -/
structure SharedOptions where
  configPath : Option String := none
  flags : Config.Flags := {}
  seed : Option Nat := none
deriving DecidableEq, Repr

/-- The document that a command works on: its path, the paths of the sources compiled with it, and
whether the command reports in JSON. -/
structure Target where
  path : String
  related : List String := []
  asJson : Bool := false
deriving DecidableEq, Repr

/-- A command. -/
inductive Command where
  | histogram (target : Target) (entry : Option String) (shots : Option Nat)
  | circuit (target : Target) (operation : Option String)
  | check (target : Target)
  | worker (maxQubits maxSteps : Nat)
  | config
  | version
deriving DecidableEq, Repr

/-- A command line that asks for a command. -/
structure Invocation where
  shared : SharedOptions
  command : Command
deriving DecidableEq, Repr

/-- A number below a bound. -/
def number? (bound : Nat) (text : String) : Option Nat :=
  (Number.parseUnsigned bound text).toOption

/-- A number of shots; zero may have a minus sign. -/
def shots? (text : String) : Option Nat :=
  match text.toList with
  | '-' :: digit :: digits => if (digit :: digits).all (· = '0') then some 0 else none
  | _ => number? UInt32.size text

/-- An option whose value is a number of sixty-four bits. -/
def wordSwitch (long : String) : Switch :=
  { long, accepts := fun value => (number? UInt64.size value).isSome }

/-- The options that may stand anywhere. -/
def sharedSwitches : List Switch :=
  [{ long := "config", accepts := (· ≠ "") },
    wordSwitch "timeout-ms",
    { long := "profile", accepts := fun value => (Profile.ofName value).isOk },
    { long := "mode", accepts := fun value => (WorkerMode.ofName value).isOk },
    wordSwitch "seed",
    { long := "verbose", short := some 'v', takesValue := false, mayRepeat := true },
    { long := "help", short := some 'h', takesValue := false, stop := some .help }]

/-- The option that asks for the version, which may stand before a command only. -/
def versionSwitch : Switch :=
  { long := "version", short := some 'V', takesValue := false, stop := some .version }

/-- The options of commands that work on a document. -/
def targetSwitches : List Switch :=
  [{ long := "with", short := some 'r', mayRepeat := true },
    { long := "json", takesValue := false }]

/-- How a command is written: its name, its operands and options, and the command that these
give. -/
structure Form where
  name : String
  operands : Nat := 0
  switches : List Switch := []
  command : Given → Command

/-- The document that options and operands name. -/
def Given.target (given : Given) : Target :=
  { path := given.operands.headD ""
    related := given.all "with"
    asJson := (given.value? "json").isSome }

/-- The value of an option that is a number of sixty-four bits. -/
def Given.word? (given : Given) (long : String) : Option Nat := do
  number? UInt64.size (← given.value? long)

/-- The commands by name. -/
def forms : List Form :=
  [{ name := "histogram", operands := 1
     switches := targetSwitches ++
       [{ long := "entry", short := some 'e' },
         { long := "shots", short := some 's', accepts := fun value => (shots? value).isSome }]
     command := fun given =>
       .histogram given.target (given.value? "entry") (given.value? "shots" >>= shots?) },
    { name := "circuit", operands := 1
      switches := targetSwitches ++ [{ long := "operation", short := some 'o' }]
      command := fun given => .circuit given.target (given.value? "operation") },
    { name := "check", operands := 1
      switches := targetSwitches
      command := fun given => .check given.target },
    { name := "worker"
      switches := [wordSwitch "max-qubits", wordSwitch "max-steps"]
      command := fun given =>
        let settings : Config.WorkerSettings := {}
        .worker ((given.word? "max-qubits").getD settings.maxQubits)
          ((given.word? "max-steps").getD settings.maxSteps) },
    { name := "config", command := fun _ => .config },
    { name := "version", command := fun _ => .version }]

/-- The shared options; those behind the command come first. -/
def Given.shared (given : Given) : SharedOptions :=
  { configPath := given.value? "config"
    flags :=
      { timeout := given.word? "timeout-ms"
        profile := given.value? "profile" >>= fun name => (Profile.ofName name).toOption
        mode := given.value? "mode" >>= fun name => (WorkerMode.ofName name).toOption }
    seed := given.word? "seed" }

/-- Why arguments behind the word `help` name nothing to do: they ask for help on a command, if
there is one of this name. -/
def helpStop : List String → Stop
  | [] => .help
  | [name] => if name = "help" || forms.any (·.name = name) then .help else .usage
  | _ => .usage

/-- Read a command line. -/
def Invocation.ofArguments (arguments : List String) : Except Stop Invocation := do
  let (before, rest) ← scan (versionSwitch :: sharedSwitches) 0 {} arguments
  match rest with
  | [] => .error .usage
  | name :: rest =>
    match forms.find? (·.name = name) with
    | none => .error (if name = "help" then helpStop rest else .usage)
    | some form =>
      let (given, rest) ← scan (form.switches ++ sharedSwitches) form.operands {} rest
      if rest ≠ [] || given.operands.length < form.operands then .error .usage
      else
        let shared := { given with values := given.values ++ before.values }
        return ⟨shared.shared, form.command given⟩

end GateBench.CommandLine
