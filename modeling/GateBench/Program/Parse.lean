import GateBench.Program.Error

/-!
Parsing one source.  The first invalid lexeme anywhere in the text wins over every syntax error.
-/

namespace GateBench.Program

open GateBench.Syntax

/-- The tokens of a text, or the first lexeme that is none with its line. -/
def validTokens (items : List Item) : Except (String × Nat) (List Lexed) :=
  items.mapM fun item =>
    match item.content with
    | .ok token => .ok ⟨token, item.line⟩
    | .error chars => .error (chars, item.line)

/-- A syntax error as an error about a source. -/
def ofSyntaxError (source : String) : SyntaxError → ProgramError
  | .unexpected line expected found => .located ⟨source, line⟩ (.unexpectedToken expected found)
  | .endOfInput expected => .unexpectedEnd source expected

/-- Read one source. -/
def parse (source : Source) : Except ProgramError SourceFile :=
  match validTokens (tokenize source.text) with
  | .error (chars, line) => .error (.located ⟨source.name, line⟩ (.invalidCharacters chars))
  | .ok tokens =>
    match file tokens with
    | .error error => .error (ofSyntaxError source.name error)
    | .ok (scope, declarations) =>
      .ok ⟨source.name, scope.map QualifiedName.text, declarations⟩

end GateBench.Program
