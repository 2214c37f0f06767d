import GateBench.CommandLine.Execute

/-!
The program: it reads what a command line needs, carries it out and prints what it leaves behind.
-/

open GateBench GateBench.CommandLine GateBench.Worker

/-- Read a file. -/
def readPath (path : String) : IO FileReading := do
  try
    return .ofBytes (← IO.FS.readBinFile path)
  catch error =>
    match error with
    | .noFileOrDirectory .. => return .missing
    | .inappropriateType .. => return .folder
    | other => return .unreadable (toString other)

/-- Read what a command finds around it, except for its input. -/
def readHost (invocation : Invocation) : IO Host := do
  let given ← variableNames.filterMapM fun name => do
    return (← IO.getEnv name).map fun value => (name, value)
  let environment := fun name => given.lookup name
  let home := Host.home { files := fun _ => .missing, environment }
  let readings ← (invocation.paths home).mapM fun path => do return (path, ← readPath path)
  let seed := (← IO.getRandomBytes 8).toUInt64LE!
  return { files := fun path => (readings.lookup path).getD .missing, environment, seed }

/-- Serve requests line by line, each answered before the next is read. -/
partial def serveLines [Message.JsonWording] (worker : LocalWorker)
    (input output : IO.FS.Stream) : IO Unit := do
  match Text.linesOf (← input.getLine) with
  | [] => return
  | line :: _ =>
    let (frames, worker) := serveLine worker line
    output.putStr (framesText frames)
    output.flush
    serveLines worker input output

/-- Print what a command leaves behind. -/
def report (outcome : Outcome) : IO UInt32 := do
  IO.print outcome.output
  IO.eprint outcome.errors
  return outcome.status.toUInt32

def main (arguments : List String) : IO UInt32 := do
  let _ : Message.JsonWording := .always "unreadable"
  match Invocation.ofArguments arguments with
  | .error stop => report stop.outcome
  | .ok invocation =>
    let host ← readHost invocation
    match invocation.command with
    | .worker maxQubits maxSteps =>
      let engine := servingEngine maxQubits maxSteps (host.seedFor invocation.shared)
      serveLines { engine } (← IO.getStdin) (← IO.getStdout)
      return 0
    | _ => report (invocation.execute host)
