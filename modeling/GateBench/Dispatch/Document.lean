import GateBench.QualifiedName
import GateBench.Source

/-!
Documents that commands work on.
-/

namespace GateBench.Dispatch

/-- A document and the sources it is compiled with. -/
structure Document where
  name : String
  text : String
  related : List Source
deriving DecidableEq, Repr

/-- The sources of a document, its own first. -/
def Document.sources (document : Document) : List Source :=
  ⟨document.name, document.text⟩ :: document.related

/-- The name of a document without folders and without its last extension.  A name that is nothing
but an extension keeps it. -/
def Document.stem (document : Document) : String :=
  let base := (document.name.toList.reverse.takeWhile fun c => c ≠ '/' && c ≠ '\\').reverse
  match splitAtLast? '.' base with
  | some (first :: others, _) => String.ofList (first :: others)
  | _ => String.ofList base

end GateBench.Dispatch
