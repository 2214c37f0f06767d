import GateBench.Display.DiagramText
import GateBench.Display.Panel

/-!
Surfaces that print: what is posted to them is appended to a text.
-/

namespace GateBench.Display

/-- Lines as one text. -/
def linesText (lines : List String) : String :=
  String.join (lines.map (· ++ "\n"))

/-- Surfaces that print a text for every notice. -/
def printing (text : Notice → String) : SurfaceKind String where
  create printed := (.ok (), printed)
  post notice printed := (.ok (), printed ++ text notice)
  close printed := printed

/-- Surfaces of a kind that a command has no use for: they cannot be opened. -/
def unavailable (kind : String) : SurfaceKind String where
  create printed :=
    (.error ⟨"the " ++ kind ++ " panel is not available for this command"⟩, printed)
  post _ printed := (.ok (), printed)
  close printed := printed

/-- A notice as a line of JSON. -/
def jsonText (notice : Notice) : String :=
  notice.line ++ "\n"

/-- The lines of a circuit result. -/
def circuitLines (result : CircuitResult) : List String :=
  [result.title, result.subtitle] ++ match result.outcome with
    | .circuit diagram => diagramLines diagram
    | .error message => ["✗ " ++ message]

/-- A notice on a panel for circuits. -/
def circuitText : Notice → String
  | .circuit result => linesText (circuitLines result)
  | .error title message => linesText ["✗ " ++ title ++ ": " ++ message]
  | .update _ => ""

end GateBench.Display
