import GateBench.Message.Diagnostic
import GateBench.Source
import GateBench.Syntax.Parser

/-!
What can be wrong with a program, from its characters to the choice of an operation.  Every cause
carries what its message needs; positions are kept apart from messages.
-/

namespace GateBench.Program

/-- A use of a qubit that the base profile does not allow. -/
inductive BaseViolation where
  | reset (qubit : Nat)
  | measuredAgain (qubit : Nat)
  | gateAfterMeasurement (qubit : Nat)
deriving DecidableEq, Repr

/-- A violation in words. -/
def BaseViolation.text : BaseViolation → String
  | .reset qubit => "Reset of qubit " ++ toString qubit
  | .measuredAgain qubit => "Qubit " ++ toString qubit ++ " is measured more than once"
  | .gateAfterMeasurement qubit => "Gate on qubit " ++ toString qubit ++ " after it was measured"

/-- The causes that belong to a line of a source. -/
inductive LocatedCause where
  | invalidCharacters (chars : String)
  | unexpectedToken (expected : Syntax.Expectation) (found : Syntax.Token)
  | unknownGate (gate : String)
  | wrongQubitCount (gate : String) (expected got : Nat)
  | wrongParameterCount (gate : String) (expected got : Nat)
  | duplicateOperand (gate : String) (qubit : Nat)
  | duplicateOperation (name : QualifiedName)
  | unknownOperation (name : QualifiedName)
  | ambiguousOperation (name : QualifiedName) (candidates : List QualifiedName)
  | callCycle (cycle : List QualifiedName)
  | tooManyQubits (operation : QualifiedName) (qubits limit : Nat)
  | programTooLarge (operation : QualifiedName) (steps limit : Nat)
  | callTooDeep (operation : QualifiedName) (depth limit : Nat)
  | profileViolation (violation : BaseViolation)
deriving DecidableEq

/-- Something wrong with a program, or with the choice of an operation in it. -/
inductive ProgramError where
  | located (location : Location) (cause : LocatedCause)
  | unexpectedEnd (source : String) (expected : Syntax.Expectation)
  | noEntryPoint
  | ambiguousEntryPoint (entries : List QualifiedName)
  | operationNotFound (name : String)
  | ambiguousName (name : String) (candidates : List QualifiedName)
deriving DecidableEq

/-- Names one after the other, with a separator between them. -/
def joinNames (separator : String) (names : List QualifiedName) : String :=
  separator.intercalate (names.map QualifiedName.text)

/-- The end of messages about limits. -/
def limitText (limit : Nat) : String :=
  "; at most " ++ toString limit ++ " are supported"

/-- The message of a cause, without its position. -/
def LocatedCause.message : LocatedCause → String
  | .invalidCharacters chars => "Invalid token: '" ++ chars ++ "'"
  | .unexpectedToken expected found =>
    "Expected " ++ expected.text ++ ", found '" ++ found.text ++ "'"
  | .unknownGate gate => "Unknown gate '" ++ gate ++ "'"
  | .wrongQubitCount gate expected got =>
    "Gate '" ++ gate ++ "' expects " ++ toString expected ++ " qubits, got " ++ toString got
  | .wrongParameterCount gate expected got =>
    "Gate '" ++ gate ++ "' expects " ++ toString expected ++ " parameters, got " ++ toString got
  | .duplicateOperand gate qubit =>
    "Qubit " ++ toString qubit ++ " is used more than once in '" ++ gate ++ "'"
  | .duplicateOperation name => "Operation '" ++ name.text ++ "' is declared more than once"
  | .unknownOperation name => "Unknown operation '" ++ name.text ++ "'"
  | .ambiguousOperation name candidates =>
    "Operation name '" ++ name.text ++ "' is ambiguous: " ++ joinNames ", " candidates
  | .callCycle cycle => "Recursive call cycle: " ++ joinNames " -> " cycle
  | .tooManyQubits operation qubits limit =>
    "Operation '" ++ operation.text ++ "' uses " ++ toString qubits ++ " qubits" ++ limitText limit
  | .programTooLarge operation steps limit =>
    "Operation '" ++ operation.text ++ "' expands to " ++ toString steps ++ " steps" ++
      limitText limit
  | .callTooDeep operation depth limit =>
    "Operation '" ++ operation.text ++ "' nests calls " ++ toString depth ++ " deep" ++
      limitText limit
  | .profileViolation violation =>
    violation.text ++ " (not supported by the base profile)"

/-- The message of an error, without its position. -/
def ProgramError.message : ProgramError → String
  | .located _ cause => cause.message
  | .unexpectedEnd _ expected => "Unexpected end of input, expected " ++ expected.text
  | .noEntryPoint => "No entry point: mark one operation with @entry"
  | .ambiguousEntryPoint entries => "Multiple entry points: " ++ joinNames ", " entries
  | .operationNotFound name => "Operation '" ++ name ++ "' not found"
  | .ambiguousName name candidates =>
    "Operation name '" ++ name ++ "' is ambiguous: " ++ joinNames ", " candidates

/-- Where an error was found, if it belongs to a line. -/
def ProgramError.location? : ProgramError → Option Location
  | .located location _ => some location
  | _ => none

/-- Whether an error is a violation of a profile. -/
def ProgramError.isProfileViolation : ProgramError → Bool
  | .located _ (.profileViolation _) => true
  | _ => false

/-- The diagnostic of an error.  The end of the input has a source but no line. -/
def ProgramError.diagnostic (error : ProgramError) : Message.Diagnostic :=
  match error with
  | .located location _ => ⟨.error, error.message, some location.source, some location.line⟩
  | .unexpectedEnd source _ => ⟨.error, error.message, some source, none⟩
  | _ => ⟨.error, error.message, none, none⟩

end GateBench.Program
