import GateBench.Message.Diagnostic
import GateBench.Message.Diagram
import GateBench.Message.Request

/-!
What a worker sends back: events while a run goes on, and one reply to every request.
-/

namespace GateBench.Message

/-- The outcome of one shot.  The index is below `2 ^ 32`. -/
structure RunEvent where
  label : String
  index : Nat
deriving DecidableEq, Repr

/-- What is known of an operation without its body. -/
structure OperationSummary where
  name : QualifiedName
  isEntry : Bool
  qubits : Nat
deriving DecidableEq, Repr

/-- What made a request fail. -/
inductive FaultKind where
  | compile
  | runtime
  | profile
  | cancelled
  | invalidRequest
deriving DecidableEq, Repr

/-- The written name of a kind of fault. -/
def FaultKind.text : FaultKind → String
  | .compile => "compile"
  | .runtime => "runtime"
  | .profile => "profile"
  | .cancelled => "cancelled"
  | .invalidRequest => "invalid_request"

/-- The failure of a request. -/
structure WorkerFault where
  kind : FaultKind
  message : String
  diagnostics : List Diagnostic
deriving DecidableEq, Repr

/-- The message of a fault, and under it its diagnostics, indented. -/
def WorkerFault.text (fault : WorkerFault) : String :=
  fault.message ++ String.join (fault.diagnostics.map fun diagnostic => "\n  " ++ diagnostic.text)

/-- The reply to a request. -/
inductive Response where
  | checked (diagnostics : List Diagnostic) (operations : List OperationSummary)
  | runComplete (shots : Nat)
  | circuit (diagram : Diagram)
  | failed (fault : WorkerFault)
deriving Repr

/-- The written name of the kind of a reply. -/
def Response.kindText : Response → String
  | .checked .. => "checked"
  | .runComplete .. => "run_complete"
  | .circuit .. => "circuit"
  | .failed .. => "failed"

/-- Whether a reply answers a kind of request.  A failure answers every kind. -/
def Response.answers : Response → RequestKind → Bool
  | .failed _, _ => true
  | .checked .., kind => kind = .check
  | .runComplete _, kind => kind = .run
  | .circuit _, kind => kind = .circuit

end GateBench.Message
