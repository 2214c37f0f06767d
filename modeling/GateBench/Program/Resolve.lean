import GateBench.Program.Basic
import GateBench.Program.Error

/-!
Resolution: every gate is looked up in the gate table, every call is bound to an operation.
-/

namespace GateBench.Program

open GateBench.Syntax

/-- A declared operation in its file's namespace. -/
structure Declared where
  name : QualifiedName
  isEntry : Bool
  location : Location
  body : List Statement
deriving DecidableEq

/-- The operations that files declare, in order. -/
def declaredIn (files : List SourceFile) : List Declared :=
  files.flatMap fun file => file.declarations.map fun declaration =>
    ⟨⟨file.scope, declaration.name⟩, declaration.isEntry, ⟨file.name, declaration.line⟩,
      declaration.body⟩

/-- Split declarations into those that name an operation first and those that repeat one of
`earlier` or of the list itself. -/
def splitRepeated (earlier : List QualifiedName) :
    List Declared → List Declared × List Declared
  | [] => ([], [])
  | first :: others =>
    if first.name ∈ earlier then
      let (kept, repeated) := splitRepeated earlier others
      (kept, first :: repeated)
    else
      let (kept, repeated) := splitRepeated (first.name :: earlier) others
      (first :: kept, repeated)

/-- The first qubit that stands behind an equal one. -/
def firstRepeated? (earlier : List Nat) : List Nat → Option Nat
  | [] => none
  | first :: others =>
    if first ∈ earlier then some first else firstRepeated? (first :: earlier) others

/-- Look a gate up: its name, then its angles, its qubits, and that these differ. -/
def resolveGate (call : GateCall) : Except LocatedCause Instruction :=
  match gateRow? call.name with
  | none => .error (.unknownGate call.name)
  | some row =>
    if call.parameters.length ≠ row.parameters then
      .error (.wrongParameterCount call.name row.parameters call.parameters.length)
    else if call.qubits.length ≠ row.qubits then
      .error (.wrongQubitCount call.name row.qubits call.qubits.length)
    else
      match firstRepeated? [] call.qubits with
      | some qubit => .error (.duplicateOperand call.name qubit)
      | none =>
        let angle := (call.parameters.head?.map (·.value)).getD 0.0
        .ok (.gate (row.gate angle) call.qubits)

/-- The numbers of the operations with a property. -/
def numbersOf (names : List QualifiedName) (wanted : QualifiedName → Bool) : List Nat :=
  (List.range names.length).filter fun number => names[number]?.any wanted

/-- Bind the target of a call made in the namespace `scope`.  A dotted target is the operation of
exactly that name; a simple one is the operation of that name in the same namespace, or else the
only one of that name. -/
def resolveCall (names : List QualifiedName) (scope : Option String) (target : QualifiedName) :
    Except LocatedCause Nat :=
  if target.scope.isSome then
    match names.idxOf? target with
    | some callee => .ok callee
    | none => .error (.unknownOperation target)
  else
    match names.idxOf? ⟨scope, target.name⟩ with
    | some callee => .ok callee
    | none =>
      match numbersOf names (·.name = target.name) with
      | [] => .error (.unknownOperation target)
      | [callee] => .ok callee
      | several => .error (.ambiguousOperation target (several.filterMap (names[·]?)))

/-- Resolve what one statement does. -/
def resolveAction (names : List QualifiedName) (scope : Option String) :
    Action → Except LocatedCause StepAction
  | .gate call => (resolveGate call).map .perform
  | .measure qubit => .ok (.perform (.measure qubit))
  | .reset qubit => .ok (.perform (.reset qubit))
  | .call target => (resolveCall names scope target).map .call

/-- Split results into errors and values, both in order. -/
def splitResults {ε α : Type} (results : List (Except ε α)) : List ε × List α :=
  (results.filterMap fun | .error error => some error | .ok _ => none,
    results.filterMap fun | .error _ => none | .ok value => some value)

/-- Resolve the body of an operation: the errors found, or else the routine. -/
def resolveBody (names : List QualifiedName) (declared : Declared) :
    Except (List ProgramError) Routine :=
  let results := declared.body.map fun statement =>
    match resolveAction names declared.name.scope statement.action with
    | .ok action => .ok (⟨action, statement.line⟩ : Step)
    | .error cause => .error (.located ⟨declared.location.source, statement.line⟩ cause)
  match splitResults results with
  | ([], steps) => .ok ⟨declared.name, declared.isEntry, declared.location, steps⟩
  | (errors, _) => .error errors

/-- Resolve the operations of all files.  Repeated declarations are reported first, then what is
wrong in the bodies of the others. -/
def resolve (files : List SourceFile) : Except (List ProgramError) (List Routine) :=
  let (kept, repeated) := splitRepeated [] (declaredIn files)
  let repeatErrors := repeated.map fun declared =>
    ProgramError.located declared.location (.duplicateOperation declared.name)
  let (bodyErrors, routines) := splitResults (kept.map (resolveBody (kept.map (·.name))))
  match repeatErrors ++ bodyErrors.flatten with
  | [] => .ok routines
  | errors => .error errors

end GateBench.Program
