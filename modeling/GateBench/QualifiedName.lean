/-!
Names of operations: a simple name, or one within a namespace.
-/

namespace GateBench

/-- A name with the namespace it belongs to, if any. -/
structure QualifiedName where
  scope : Option String
  name : String
deriving DecidableEq, Repr

/-- The dotted form: the namespace, a dot and the name. -/
def QualifiedName.text (qualified : QualifiedName) : String :=
  match qualified.scope with
  | some scope => scope ++ "." ++ qualified.name
  | none => qualified.name

/-- Split characters in front of and behind the last `mark`; `none` without one. -/
def splitAtLast? (mark : Char) (chars : List Char) : Option (List Char × List Char) :=
  let last := (chars.reverse.takeWhile (· ≠ mark)).reverse
  if last.length = chars.length then none
  else some (chars.take (chars.length - last.length - 1), last)

/-- Read a dotted form: what follows the last dot is the name. -/
def QualifiedName.ofText (text : String) : QualifiedName :=
  match splitAtLast? '.' text.toList with
  | some (scope, name) => ⟨some (String.ofList scope), String.ofList name⟩
  | none => ⟨none, text⟩

example : QualifiedName.ofText "A.B.C" = ⟨some "A.B", "C"⟩ := by decide
example : QualifiedName.ofText "A." = ⟨some "A", ""⟩ := by decide
example : QualifiedName.ofText "A" = ⟨none, "A"⟩ := by decide

end GateBench
