import GateBench.Syntax.Lexer
import GateBench.Syntax.Tree

/-!
Reading a token sequence as a source file.

    file        := [ namespace qualified ";" ] declaration*
    declaration := [ @entry ] operation IDENTIFIER "{" statement* "}"
    statement   := measure WHOLE ";" | reset WHOLE ";" | call qualified ";"
                 | IDENTIFIER [ "(" [ angle { "," angle } ] ")" ] WHOLE { "," WHOLE } ";"
    qualified   := IDENTIFIER { "." IDENTIFIER }
    angle       := operand { operator operand }        by binding strength, to the left
    operand     := "-" operand | NUMBER | pi | "(" angle ")"

Every reader takes one token at a time and fails at the first token that cannot stand where it is.
It returns the tokens behind what it read, which are fewer than it was given.
-/

namespace GateBench.Syntax

/-- A token and the line it starts on. -/
structure Lexed where
  token : Token
  line : Nat
deriving DecidableEq

/-- What could have stood at the place of an error. -/
inductive Expectation where
  | token (wanted : Token)
  | statement
  | qubitIndex
  | identifier
  | expression
deriving DecidableEq

/-- How an expectation is named in messages; tokens are quoted. -/
def Expectation.text : Expectation → String
  | .token wanted => "'" ++ wanted.text ++ "'"
  | .statement => "statement"
  | .qubitIndex => "qubit index"
  | .identifier => "identifier"
  | .expression => "expression"

/-- Why a token sequence is no source file. -/
inductive SyntaxError where
  | unexpected (line : Nat) (expected : Expectation) (found : Token)
  | endOfInput (expected : Expectation)
deriving DecidableEq

/-- The failure to find what was expected at the front of `tokens`. -/
def expected (expectation : Expectation) : List Lexed → SyntaxError
  | [] => .endOfInput expectation
  | first :: _ => .unexpected first.line expectation first.token

/-- Something read, and the tokens behind it: fewer than `bound`. -/
structure Parsed (α : Type) (bound : Nat) where
  value : α
  rest : List Lexed
  shorter : rest.length < bound

/-- What is read from a token sequence, if anything can be. -/
abbrev Reading (α : Type) (tokens : List Lexed) :=
  Except SyntaxError (Parsed α tokens.length)

/-- Take one given token. -/
def single (wanted : Token) : (tokens : List Lexed) → Reading Unit tokens
  | [] => .error (.endOfInput (.token wanted))
  | first :: rest =>
    if first.token = wanted then .ok ⟨(), rest, by simp⟩
    else .error (.unexpected first.line (.token wanted) first.token)

/-- Take one identifier. -/
def identifier : (tokens : List Lexed) → Reading String tokens
  | ⟨.identifier name, _⟩ :: rest => .ok ⟨name, rest, by simp⟩
  | tokens => .error (expected .identifier tokens)

/-- Take the index of a qubit. -/
def qubitIndex : (tokens : List Lexed) → Reading Nat tokens
  | ⟨.whole index, _⟩ :: rest => .ok ⟨index, rest, by simp⟩
  | tokens => .error (expected .qubitIndex tokens)

/-- Take the parts of a dotted name that follow its first part. -/
def dottedParts (tokens : List Lexed) :
    Except SyntaxError (Parsed (List String) (tokens.length + 1)) :=
  match tokens with
  | ⟨.mark .dot, _⟩ :: after => do
    let part ← identifier after
    let parts ← dottedParts part.rest
    return ⟨part.value :: parts.value, parts.rest,
      Nat.lt_add_right 2 (Nat.lt_of_lt_of_le parts.shorter part.shorter)⟩
  | tokens => .ok ⟨[], tokens, Nat.lt_add_one _⟩
termination_by tokens.length
decreasing_by exact Nat.lt_add_right 1 part.shorter

/-- Take a dotted name; all but its last part are the namespace. -/
def qualifiedName (tokens : List Lexed) : Reading QualifiedName tokens := do
  let first ← identifier tokens
  let others ← dottedParts first.rest
  let parts := first.value :: others.value
  let scope := parts.dropLast
  let name : QualifiedName :=
    ⟨if scope = [] then none else some (".".intercalate scope), parts.getLast (by simp [parts])⟩
  return ⟨name, others.rest, by have := first.shorter; have := others.shorter; omega⟩

/-- Take the qubits that follow the first one of a gate. -/
def furtherQubits (tokens : List Lexed) :
    Except SyntaxError (Parsed (List Nat) (tokens.length + 1)) :=
  match tokens with
  | ⟨.mark .comma, _⟩ :: after => do
    let qubit ← qubitIndex after
    let qubits ← furtherQubits qubit.rest
    return ⟨qubit.value :: qubits.value, qubits.rest,
      Nat.lt_add_right 2 (Nat.lt_of_lt_of_le qubits.shorter qubit.shorter)⟩
  | tokens => .ok ⟨[], tokens, Nat.lt_add_one _⟩
termination_by tokens.length
decreasing_by exact Nat.lt_add_right 1 qubit.shorter

/-- The operator that a token stands for between two operands. -/
def Operator.ofToken? : Token → Option Operator
  | .mark .plus => some .add
  | .mark .minus => some .subtract
  | .mark .star => some .multiply
  | .mark .slash => some .divide
  | _ => none

mutual

/-- Take one operand: a sign binds tighter than every operator. -/
def operand (tokens : List Lexed) : Reading Expression tokens :=
  match tokens with
  | ⟨.mark .minus, _⟩ :: rest => do
    let inner ← operand rest
    return ⟨.negate inner.value, inner.rest, by have := inner.shorter; simp; omega⟩
  | ⟨.whole value, _⟩ :: rest => .ok ⟨.number (Number.nearest value 1), rest, by simp⟩
  | ⟨.decimal value, _⟩ :: rest => .ok ⟨.number value, rest, by simp⟩
  | ⟨.keyword .piWord, _⟩ :: rest => .ok ⟨.pi, rest, by simp⟩
  | ⟨.mark .leftParen, _⟩ :: rest => do
    let inner ← climb 0 rest
    let closing ← single (.mark .rightParen) inner.rest
    return ⟨inner.value, closing.rest, by
      have := inner.shorter; have := closing.shorter; simp; omega⟩
  | tokens => .error (expected .expression tokens)
termination_by (tokens.length, 0)

/-- Take an operand and every operator behind it that binds at least as tight as `least`. -/
def climb (least : Nat) (tokens : List Lexed) : Reading Expression tokens := do
  let left ← operand tokens
  let whole ← extend least left.value left.rest
  return ⟨whole.value, whole.rest, by have := left.shorter; have := whole.shorter; omega⟩
termination_by (tokens.length, 1)
decreasing_by
  · decreasing_tactic
  · have := left.shorter; exact Prod.Lex.left _ _ this

/-- Go on from the operand `left` while an operator follows that binds at least as tight as `least`.
Its right operand takes only what binds tighter than it, so equal operators group to the left. -/
def extend (least : Nat) (left : Expression) (tokens : List Lexed) :
    Except SyntaxError (Parsed Expression (tokens.length + 1)) :=
  match tokens with
  | [] => .ok ⟨left, [], by simp⟩
  | first :: after =>
    match Operator.ofToken? first.token with
    | none => .ok ⟨left, first :: after, by omega⟩
    | some operator =>
      if operator.precedence < least then .ok ⟨left, first :: after, by omega⟩
      else do
        let right ← climb (operator.precedence + 1) after
        let whole ← extend least (.binary operator left right.value) right.rest
        return ⟨whole.value, whole.rest, by
          have := right.shorter; have := whole.shorter; simp; omega⟩
termination_by (tokens.length, 0)
decreasing_by
  · decreasing_tactic
  · have := right.shorter; apply Prod.Lex.left; simp; omega

end

/-- Take a whole angle. -/
def angle (tokens : List Lexed) : Reading Expression tokens :=
  climb 0 tokens

/-- Take the angles that follow the first one of a parameter list. -/
def furtherAngles (tokens : List Lexed) :
    Except SyntaxError (Parsed (List Expression) (tokens.length + 1)) :=
  match tokens with
  | ⟨.mark .comma, _⟩ :: after => do
    let first ← angle after
    let others ← furtherAngles first.rest
    return ⟨first.value :: others.value, others.rest, by
      have := first.shorter; have := others.shorter; simp; omega⟩
  | tokens => .ok ⟨[], tokens, by omega⟩
termination_by tokens.length
decreasing_by have := first.shorter; simp; omega

/-- Take a parameter list in parentheses, which may be empty or missing. -/
def parameters (tokens : List Lexed) :
    Except SyntaxError (Parsed (List Expression) (tokens.length + 1)) :=
  match tokens with
  | ⟨.mark .leftParen, _⟩ :: ⟨.mark .rightParen, _⟩ :: rest => .ok ⟨[], rest, by simp; omega⟩
  | ⟨.mark .leftParen, _⟩ :: rest => do
    let first ← angle rest
    let others ← furtherAngles first.rest
    let closing ← single (.mark .rightParen) others.rest
    return ⟨first.value :: others.value, closing.rest, by
      have := first.shorter; have := others.shorter; have := closing.shorter; simp; omega⟩
  | tokens => .ok ⟨[], tokens, by omega⟩

/-- Take what a statement does, up to its semicolon. -/
def action : (tokens : List Lexed) → Reading Action tokens
  | ⟨.keyword .measureWord, _⟩ :: rest => do
    let qubit ← qubitIndex rest
    return ⟨.measure qubit.value, qubit.rest, by have := qubit.shorter; simp; omega⟩
  | ⟨.keyword .resetWord, _⟩ :: rest => do
    let qubit ← qubitIndex rest
    return ⟨.reset qubit.value, qubit.rest, by have := qubit.shorter; simp; omega⟩
  | ⟨.keyword .callWord, _⟩ :: rest => do
    let target ← qualifiedName rest
    return ⟨.call target.value, target.rest, by have := target.shorter; simp; omega⟩
  | ⟨.identifier name, _⟩ :: rest => do
    let angles ← parameters rest
    let first ← qubitIndex angles.rest
    let others ← furtherQubits first.rest
    return ⟨.gate ⟨name, angles.value, first.value :: others.value⟩, others.rest, by
      have := angles.shorter; have := first.shorter; have := others.shorter; simp; omega⟩
  | tokens => .error (expected .statement tokens)

/-- Take one statement. -/
def statement (tokens : List Lexed) : Reading Statement tokens := do
  let done ← action tokens
  let closing ← single (.mark .semicolon) done.rest
  let line := (tokens.head?.map (·.line)).getD 1
  return ⟨⟨done.value, line⟩, closing.rest, by
    have := done.shorter; have := closing.shorter; omega⟩

/-- Take statements up to the brace that closes their operation. -/
def body (tokens : List Lexed) : Reading (List Statement) tokens :=
  match tokens with
  | [] => .error (.endOfInput (.token (.mark .rightBrace)))
  | ⟨.mark .rightBrace, _⟩ :: rest => .ok ⟨[], rest, by simp⟩
  | first :: after => do
    let statement ← statement (first :: after)
    let statements ← body statement.rest
    return ⟨statement.value :: statements.value, statements.rest, by
      have := statement.shorter; have := statements.shorter; omega⟩
termination_by tokens.length
decreasing_by have := statement.shorter; simpa using this

/-- Take the mark of an entry point, if it is there. -/
def entryMark : List Lexed → Bool × List Lexed
  | ⟨.keyword .entryMark, _⟩ :: rest => (true, rest)
  | tokens => (false, tokens)

theorem entryMark_length_le (tokens : List Lexed) :
    (entryMark tokens).2.length ≤ tokens.length := by
  unfold entryMark
  split <;> simp

/-- Take one operation. -/
def declaration (tokens : List Lexed) : Reading Declaration tokens := do
  let (isEntry, unmarked) := entryMark tokens
  let keyword ← single (.keyword .operationWord) (entryMark tokens).2
  let name ← identifier keyword.rest
  let opening ← single (.mark .leftBrace) name.rest
  let statements ← body opening.rest
  let line := (unmarked.head?.map (·.line)).getD 1
  return ⟨⟨name.value, isEntry, line, statements.value⟩, statements.rest, by
    have := entryMark_length_le tokens
    have := keyword.shorter; have := name.shorter
    have := opening.shorter; have := statements.shorter
    omega⟩

/-- Take operations up to the end. -/
def declarations (tokens : List Lexed) : Except SyntaxError (List Declaration) :=
  match tokens with
  | [] => .ok []
  | first :: after => do
    let declared ← declaration (first :: after)
    let others ← declarations declared.rest
    return declared.value :: others
termination_by tokens.length
decreasing_by have := declared.shorter; simpa using this

/-- Take a whole file: its namespace, if stated, and its operations. -/
def file : List Lexed → Except SyntaxError (Option QualifiedName × List Declaration)
  | ⟨.keyword .namespaceWord, _⟩ :: rest => do
    let scope ← qualifiedName rest
    let closing ← single (.mark .semicolon) scope.rest
    return (some scope.value, ← declarations closing.rest)
  | tokens => do return (none, ← declarations tokens)

end GateBench.Syntax
