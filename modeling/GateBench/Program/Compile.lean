import GateBench.Program.CallOrder
import GateBench.Program.Measure
import GateBench.Program.Parse
import GateBench.Program.Resolve

/-!
Compilation of sources into a program.  Each stage runs only when the one before found nothing
wrong: parsing, resolution, call cycles, sizes.  All errors of a stage are reported.
-/

namespace GateBench.Program

/-- The calls of a routine, in order. -/
def Routine.callSites (routine : Routine) : List CallSite :=
  routine.body.filterMap fun step => step.action.callee?.map fun callee => ⟨callee, step.line⟩

/-- The calls of the operation of a number. -/
def callsIn (routines : Array Routine) (number : Nat) : List CallSite :=
  (routines[number]?.map (·.callSites)).getD []

/-- The error for a cycle of calls: the names along it, ending with the first one again, at the
call that closes it. -/
def cycleError (routines : Array Routine) (cycle : CallCycle) : ProgramError :=
  let along := cycle.path.filterMap (routines[·]?)
  let closing := (along.getLast?.map (·.location.source)).getD ""
  let names := along.map (·.name)
  .located ⟨closing, cycle.line⟩ (.callCycle (names ++ names.take 1))

/-- The errors for sizes of one operation that cross a limit which all operations it calls keep. -/
def sizeErrors (limits : Limits) (program : Program) (operation : Operation) :
    List ProgramError :=
  let below := operation.callees.filterMap (program.operations[·]?)
  let figures := operation.figures
  let tooLarge :=
    if limits.maxSteps < figures.steps && below.all (·.figures.steps ≤ limits.maxSteps) then
      [LocatedCause.programTooLarge operation.name figures.steps limits.maxSteps]
    else []
  let tooDeep :=
    if limits.maxCallDepth < figures.callDepth &&
        below.all (·.figures.callDepth ≤ limits.maxCallDepth) then
      [LocatedCause.callTooDeep operation.name figures.callDepth limits.maxCallDepth]
    else []
  (tooLarge ++ tooDeep).map (.located operation.location)

/-- The number of qubits up to the highest one that an operation acts on itself. -/
def Routine.directQubits (routine : Routine) : Nat :=
  ((routine.body.flatMap (·.action.qubits)).map (· + 1)).foldl max 0

/-- The error for an operation that itself acts on a qubit beyond the limit. -/
def qubitErrors (limits : Limits) (operation : Operation) : List ProgramError :=
  let qubits := operation.directQubits
  if limits.maxQubits < qubits then
    [.located operation.location (.tooManyQubits operation.name qubits limits.maxQubits)]
  else []

/-- Compile the parsed files. -/
def compileFiles (files : List Syntax.SourceFile) (limits : Limits) :
    Except (List ProgramError) Program := do
  let routines := (← resolve files).toArray
  let found := callOrder routines.size (callsIn routines)
  if found.cycles ≠ [] then throw (found.cycles.map (cycleError routines))
  let figures := measureAll routines found.order
  let program : Program :=
    ⟨routines.mapIdx fun number routine => ⟨routine, figuresAt figures number⟩⟩
  let operations := program.operations.toList
  match operations.flatMap (sizeErrors limits program) ++
      operations.flatMap (qubitErrors limits) with
  | [] => return program
  | errors => throw errors

/-- Compile sources within limits, or report what is wrong with them. -/
def compile (sources : List Source) (limits : Limits) : Except (List ProgramError) Program :=
  match splitResults (sources.map parse) with
  | ([], files) => compileFiles files limits
  | (errors, _) => .error errors

end GateBench.Program
