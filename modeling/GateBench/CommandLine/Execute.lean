import GateBench.CommandLine.Invocation
import GateBench.CommandLine.Workforce
import GateBench.Dispatch.CheckText
import GateBench.Display.HistogramTable
import GateBench.Display.Terminal

/-!
Commands of the command line: what each prints, and how it ends.
-/

namespace GateBench.CommandLine

open GateBench.Dispatch GateBench.Display GateBench.Worker

variable [Message.JsonWording]

/-- What a command finds around it: files, variables of the environment, the lines of its input, and
the seed of draws that are not to be repeated. -/
structure Host where
  files : Files
  environment : Config.Environment
  input : List Line := []
  seed : UInt64 := 0

/-- What a command leaves behind: what it prints, what it prints as errors, and its status. -/
structure Outcome where
  output : String := ""
  errors : String := ""
  status : Nat := 0
deriving DecidableEq, Repr

/-- A command that printed something and then failed. -/
def Outcome.failed (output message : String) : Outcome :=
  ⟨output, "Error: " ++ message ++ "\n", 1⟩

/-- Go on with a value, or fail with the message in its place. -/
def orFail {α : Type} (value : Except String α) (next : α → Outcome) : Outcome :=
  match value with
  | .ok value => next value
  | .error message => .failed "" message

/-- The folder of the user. -/
def Host.home (host : Host) : Option String :=
  (host.environment "HOME").filter (· ≠ "")

/-- The seed of a command's draws. -/
def Host.seedFor (host : Host) (shared : SharedOptions) : UInt64 :=
  (shared.seed.map Nat.toUInt64).getD host.seed

/-- The configuration in force. -/
def Host.config (host : Host) (shared : SharedOptions) : Except String Config :=
  (Config.stored host.files host.home shared.configPath >>= fun config =>
    config.combine host.environment shared.flags).mapError (·.message)

/-- The text of a file, which is named in the failure. -/
def Host.read (host : Host) (path : String) : Except String String :=
  (host.files path).contents.mapError fun reason =>
    "Failed to read file: " ++ path ++ ": " ++ reason

/-- The document of a command. -/
def Host.document (host : Host) (target : Target) : Except String Document := do
  if !(host.files target.path).isPresent then throw ("File not found: " ++ target.path)
  let text ← host.read target.path
  let related ← target.related.mapM fun path => return ⟨path, ← host.read path⟩
  return ⟨target.path, text, related⟩

/-- A dispatcher that prints what its panels show. -/
def dispatcherOf (config : Config) : Dispatcher String String where
  pool := { capacity := config.worker.maxWorkers, timeout := config.worker.timeout }
  histogramPanel := .new ""
  circuitPanel := .new ""
  policy := config.display
  eventBuffer := config.worker.eventBuffer
  profile := config.profile

/-- Surfaces that print JSON, or else the text of each notice. -/
def surfaces (asJson : Bool) (text : Notice → String) : SurfaceKind String :=
  printing (if asJson then jsonText else text)

/-- Run a document and print the histogram of its outcomes. -/
def runHistogram (config : Config) (workforce : Workforce) (document : Document)
    (asJson : Bool) (entry : Option String) (shots : Nat) : Outcome :=
  let heading := "→ Running " ++ document.name ++ " (" ++ toString shots ++ " shots, " ++
    config.profile.text ++ " profile)\n"
  let kind := surfaces asJson fun _ => ""
  let (result, dispatcher, ()) :=
    (dispatcherOf config).runHistogram workforce.transport kind document entry shots ()
  let shown := (if asJson then "" else heading) ++ dispatcher.histogramPanel.surfaces
  match result with
  | .error error => .failed shown error.fullMessage
  | .ok histogram =>
    { output := shown ++ if asJson then "" else linesText (histogramTable shots histogram) }

/-- Draw the circuit of a document and print it. -/
def drawCircuit (config : Config) (workforce : Workforce) (document : Document)
    (asJson : Bool) (operation : Option QualifiedName) : Outcome :=
  let kind := surfaces asJson circuitText
  let (result, dispatcher, ()) :=
    (dispatcherOf config).renderCircuit workforce.transport kind document operation ()
  let shown := dispatcher.circuitPanel.surfaces
  match result with
  | .error error => .failed shown error.fullMessage
  | .ok circuit =>
    match circuit.error? with
    | some message => .failed shown ("Circuit could not be built: " ++ message)
    | none => { output := shown }

/-- Check a document and print what was found. -/
def checkDocument (config : Config) (workforce : Workforce) (document : Document)
    (asJson : Bool) : Outcome :=
  let kind := surfaces asJson fun _ => ""
  let (result, dispatcher, ()) :=
    (dispatcherOf config).check workforce.transport kind document ()
  let shown := dispatcher.histogramPanel.surfaces
  match result with
  | .error error => .failed shown error.fullMessage
  | .ok report =>
    let shown := shown ++ if asJson then report.jsonText ++ "\n" else linesText report.lines
    if 0 < report.errorCount then
      .failed shown (document.name ++ ": " ++ toString report.errorCount ++ " problem(s) found")
    else
      { output := shown ++ if asJson then "" else "✓ " ++ document.name ++ " is valid\n" }

/-- The engine that serves requests within these limits. -/
def servingEngine (maxQubits maxSteps : Nat) (seed : UInt64) : Engine :=
  engineOf { worker := { maxQubits, maxSteps } } seed

/-- Serve the requests that come in as lines. -/
def serveRequests (host : Host) (engine : Engine) : Outcome :=
  let served := serve engine host.input
  match served.ending with
  | .error error =>
    .failed (framesText served.frames) ("Worker loop failed: " ++ error.fullMessage)
  | .ok _ => { output := framesText served.frames }

/-- Print the configuration in force, and where its file would be. -/
def showConfig (host : Host) (config : Config) : Outcome :=
  let place := match host.home.map Config.defaultPath with
    | none => "No home directory; using defaults\n"
    | some path =>
      "Config file: " ++ path ++ if (host.files path).isPresent then "\n" else " (not present)\n"
  { output := config.toYaml, errors := place }

/-- The number of this release. -/
def release : String :=
  "0.3.0"

/-- Print which release this is and what it consists of. -/
def showVersion : Outcome where
  output := linesText
    ["qbridge v" ++ release ++ " - bridge between editor commands and quantum compute workers",
      "",
      "Components:",
      "  qbridge-proto        Worker request/response and wire frames",
      "  qbridge-worker       Worker handles, pool and transports",
      "  qbridge-dispatch     Commands, aggregation and display panels",
      "  qbridge-adapter-sim  Statevector engine",
      "",
      "License:    Apache-2.0"]

/-- A command on a document, given the configuration in force, workers and the document. -/
def onDocument (host : Host) (shared : SharedOptions) (target : Target)
    (command : Config → Workforce → Document → Bool → Outcome) : Outcome :=
  orFail (host.config shared) fun config =>
    orFail (host.document target) fun document =>
      command config (workforceOf config (host.seedFor shared)) document target.asJson

/-- The paths of the files that a command may read. -/
def Invocation.paths (home : Option String) (invocation : Invocation) : List String :=
  let documents := match invocation.command with
    | .histogram target .. | .circuit target _ | .check target => target.path :: target.related
    | _ => []
  (home.map Config.defaultPath).toList ++ invocation.shared.configPath.toList ++ documents

/-- The variables of the environment that commands look at. -/
def variableNames : List String :=
  "HOME" :: Config.overridingVariables.map (·.name)

/-- Carry out a command. -/
def Invocation.execute (host : Host) (invocation : Invocation) : Outcome :=
  let shared := invocation.shared
  match invocation.command with
  | .histogram target entry shots =>
    onDocument host shared target fun config workforce document asJson =>
      runHistogram config workforce document asJson entry (shots.getD config.defaultShots)
  | .circuit target operation =>
    onDocument host shared target fun config workforce document asJson =>
      drawCircuit config workforce document asJson (operation.map QualifiedName.ofText)
  | .check target => onDocument host shared target checkDocument
  | .worker maxQubits maxSteps =>
    serveRequests host (servingEngine maxQubits maxSteps (host.seedFor shared))
  | .config => orFail (host.config shared) (showConfig host)
  | .version => showVersion

/-- How to call the program. -/
def usageText : String :=
  linesText
    ["Usage: qbridge [OPTIONS] <COMMAND>", "",
      "Commands:",
      "  histogram <INPUT>  Run a program and show the histogram of its outcomes",
      "  circuit <INPUT>    Show the circuit of an operation",
      "  check <INPUT>      Compile a program and list diagnostics and operations",
      "  worker             Serve requests on standard input",
      "  config             Print the configuration in force",
      "  version            Show what this program consists of"]

/-- What is left behind where arguments name nothing to do. -/
def Stop.outcome : Stop → Outcome
  | .usage => { errors := usageText, status := 2 }
  | .help => { output := usageText }
  | .version => { output := "qbridge " ++ release ++ "\n" }

/-- Carry out a command line. -/
def execute (host : Host) (arguments : List String) : Outcome :=
  match Invocation.ofArguments arguments with
  | .ok invocation => invocation.execute host
  | .error stop => stop.outcome

end GateBench.CommandLine
