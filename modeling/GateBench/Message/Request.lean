import GateBench.QualifiedName
import GateBench.Source

/-!
Requests to a worker.
-/

namespace GateBench.Message

/-- What the target of a program can do: `base` allows no reset and nothing on a measured qubit. -/
inductive Profile where
  | base
  | unrestricted
deriving DecidableEq, Repr

/-- The written name of a profile. -/
def Profile.text : Profile → String
  | .base => "base"
  | .unrestricted => "unrestricted"

/-- A request over sources.  Shots are below `2 ^ 32`. -/
inductive Request where
  | check (sources : List Source) (profile : Profile)
  | run (sources : List Source) (entry : Option String) (shots : Nat) (profile : Profile)
  | circuit (sources : List Source) (profile : Profile) (operation : Option QualifiedName)
deriving DecidableEq, Repr

/-- The kinds of request. -/
inductive RequestKind where
  | check
  | run
  | circuit
deriving DecidableEq, Repr

/-- The written name of a kind of request. -/
def RequestKind.text : RequestKind → String
  | .check => "check"
  | .run => "run"
  | .circuit => "circuit"

/-- Every kind of request, each once. -/
def RequestKind.all : List RequestKind :=
  [.check, .run, .circuit]

/-- The kind of a request. -/
def Request.kind : Request → RequestKind
  | .check .. => .check
  | .run .. => .run
  | .circuit .. => .circuit

/-- The sources a request is about. -/
def Request.sources : Request → List Source
  | .check sources _ => sources
  | .run sources _ _ _ => sources
  | .circuit sources _ _ => sources

/-- Only a run streams events before its reply. -/
def Request.streamsEvents (request : Request) : Bool :=
  request.kind = .run

end GateBench.Message
