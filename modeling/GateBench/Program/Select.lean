import GateBench.Program.Basic
import GateBench.Program.Error

/-!
Choosing an operation of a program.
-/

namespace GateBench.Program

/-- The numbers of the operations with a property, ascending. -/
def numbersWhere (program : Program) (wanted : Operation → Bool) : List Nat :=
  (List.range program.operations.size).filter fun number =>
    program.operations[number]?.any wanted

/-- The names of operations given by number. -/
def namesOf (program : Program) (numbers : List Nat) : List QualifiedName :=
  numbers.filterMap fun number => program.operations[number]?.map (·.name)

/-- Find the operation that a text names: by its simple name, or by namespace and name. -/
def findText (program : Program) (text : String) : Except ProgramError Nat :=
  let wanted := QualifiedName.ofText text
  let found := program.numbersWhere fun operation =>
    operation.name.name = wanted.name &&
      (wanted.scope.isNone || operation.name.scope = wanted.scope)
  match found with
  | [] => .error (.operationNotFound text)
  | [number] => .ok number
  | several => .error (.ambiguousName text (program.namesOf several))

/-- Find the operation of a name; without a namespace any operation of that simple name will do, if
it is the only one. -/
def find (program : Program) (name : QualifiedName) : Except ProgramError Nat :=
  program.findText name.text

/-- The operation to run: the one asked for, or else the only entry point. -/
def entry (program : Program) (requested : Option String) : Except ProgramError Nat :=
  match requested with
  | some text => program.findText text
  | none =>
    match program.numbersWhere (·.isEntry) with
    | [] => .error .noEntryPoint
    | [number] => .ok number
    | several => .error (.ambiguousEntryPoint (program.namesOf several))

end GateBench.Program
