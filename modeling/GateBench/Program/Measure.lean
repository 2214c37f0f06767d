import GateBench.Program.Basic

/-!
Figures of operations, computed from the figures of the operations they call.
-/

namespace GateBench.Program

/-- The largest size that is told apart from larger ones. -/
def maxCount : Nat :=
  UInt64.size - 1

/-- Addition that stops at the largest size. -/
def saturatedAdd (left right : Nat) : Nat :=
  min maxCount (left + right)

/-- Put a number into an ascending list, once. -/
def insertAscending (n : Nat) : List Nat → List Nat
  | [] => [n]
  | first :: others =>
    if n < first then n :: first :: others
    else if n = first then first :: others
    else first :: insertAscending n others

/-- Put all numbers of the first list into the second, which is ascending. -/
def uniteAscending (numbers ascending : List Nat) : List Nat :=
  numbers.foldl (fun united n => insertAscending n united) ascending

/-- The figures of an operation that does nothing. -/
def Figures.empty : Figures :=
  ⟨[], 0, 0⟩

/-- The figures after one more step, given the figures of every operation that may be called. -/
def Figures.afterStep (figuresOf : Nat → Figures) (figures : Figures) (step : Step) : Figures :=
  let counted := saturatedAdd figures.steps 1
  match step.action with
  | .perform instruction =>
    { figures with
      touched := uniteAscending instruction.qubits figures.touched
      steps := counted }
  | .call callee =>
    let below := figuresOf callee
    { touched := uniteAscending below.touched figures.touched
      steps := saturatedAdd counted below.steps
      callDepth := max figures.callDepth (saturatedAdd below.callDepth 1) }

/-- The figures of a body. -/
def Figures.ofBody (figuresOf : Nat → Figures) (body : List Step) : Figures :=
  body.foldl (Figures.afterStep figuresOf) .empty

/-- Look figures up by the number of their operation. -/
def figuresAt (table : Array Figures) (number : Nat) : Figures :=
  table[number]?.getD .empty

/-- The figures of all operations.  They are right when `order` lists every operation behind those
it calls, for then the figures of the callees are in the table when they are needed. -/
def measureAll (routines : Array Routine) (order : List Nat) : Array Figures :=
  order.foldl (fun table number =>
      match routines[number]? with
      | some routine => table.setIfInBounds number (.ofBody (figuresAt table) routine.body)
      | none => table)
    (Array.replicate routines.size .empty)

end GateBench.Program
