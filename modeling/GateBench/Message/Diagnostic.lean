/-!
Diagnostics: findings about the sources of a request.
-/

namespace GateBench.Message

/-- How serious a finding is. -/
inductive Severity where
  | error
  | warning
deriving DecidableEq, Repr

/-- A finding, and the source and line it is about, as far as they are known. -/
structure Diagnostic where
  severity : Severity
  message : String
  source : Option String
  line : Option Nat
deriving DecidableEq, Repr

/-- A diagnostic on one line: the position, as far as it starts with a source, and the message. -/
def Diagnostic.text (diagnostic : Diagnostic) : String :=
  match diagnostic.source, diagnostic.line with
  | some source, some line => source ++ ":" ++ toString line ++ ": " ++ diagnostic.message
  | some source, none => source ++ ": " ++ diagnostic.message
  | none, _ => diagnostic.message

/-- Whether a diagnostic is an error rather than a warning. -/
def Diagnostic.isError (diagnostic : Diagnostic) : Bool :=
  diagnostic.severity = .error

end GateBench.Message
