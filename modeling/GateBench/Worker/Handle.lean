import GateBench.Worker.Transport

/-!
Handles: the exclusive hold on one worker.  A handle takes requests one after the other until one of
them fails or its time runs out, and it stops its worker once: when it is released, at the deadline
of a request, or else when it is dropped.
-/

namespace GateBench.Worker

open GateBench.Message

/-- How long a request may take unless stated otherwise, in milliseconds. -/
def defaultTimeout : Nat :=
  300000

/-- Where a handle is in its life. -/
inductive HandleState where
  | idle
  | busy
  | completed
  | failed
  | timedOut
  | terminated
deriving DecidableEq, Repr

/-- The written name of a state. -/
def HandleState.text : HandleState → String
  | .idle => "idle"
  | .busy => "busy"
  | .completed => "completed"
  | .failed => "failed"
  | .timedOut => "timed out"
  | .terminated => "terminated"

/-- Whether a handle takes a request. -/
def HandleState.accepts (state : HandleState) : Bool :=
  state = .idle || state = .completed

/-- Whether a handle has come to its end. -/
def HandleState.isTerminal (state : HandleState) : Bool :=
  state = .terminated

/-- Why a handle refuses a request in a state. -/
def HandleState.refusal? : HandleState → Option WorkerError
  | .idle | .completed => none
  | .busy => some .busy
  | .failed => some .unusable
  | .timedOut | .terminated => some .terminated

/-- A handle on a worker.  `timedOut` tells whether a deadline has ended it, `holdsSlot` whether it
occupies a slot of a pool. -/
structure Handle (ν : Type) where
  worker : ν
  timeout : Nat
  state : HandleState := .idle
  timedOut : Bool := false
  holdsSlot : Bool := false
deriving Repr

/-- What came of issuing a request: what happened on the way, and the outcome, if the caller has
waited for it. -/
structure Issued where
  happenings : List Happening
  outcome : Option (Except WorkerError Response)

/-- An outcome without a call. -/
def Issued.refused (error : WorkerError) : Issued :=
  ⟨[], some (.error error)⟩

namespace Handle

variable {ν ω : Type}

/-- Stop the worker, unless it has been stopped. -/
def shutdown (transport : Transport ν ω) (handle : Handle ν) (surroundings : ω) :
    Handle ν × ω :=
  if handle.state.isTerminal then (handle, surroundings)
  else
    let (worker, surroundings) := transport.terminate handle.worker surroundings
    ({ handle with worker, state := .terminated }, surroundings)

/-- What the end of a call makes of a busy handle, and the outcome of the request.  At the deadline
the worker is stopped before the outcome is known. -/
def conclude (transport : Transport ν ω) (handle : Handle ν) (ending : CallEnd)
    (surroundings : ω) : Option (Except WorkerError Response) × Handle ν × ω :=
  match ending with
  | .replied (.failed fault) =>
    (some (.error (.failure fault)), { handle with state := .failed }, surroundings)
  | .replied response => (some (.ok response), { handle with state := .completed }, surroundings)
  | .failed error => (some (.error error), { handle with state := .failed }, surroundings)
  | .deadline =>
    let (handle, surroundings) :=
      { handle with state := .timedOut, timedOut := true }.shutdown transport surroundings
    (some (.error (.timeout handle.timeout)), handle, surroundings)
  | .abandoned => (none, handle, surroundings)

/-- Call the worker with a request, if the handle takes one; the handle is busy from then on. -/
def call (transport : Transport ν ω) (handle : Handle ν) (request : Request)
    (reception : Reception) (abandonAfter : Option Nat) (surroundings : ω) :
    Except WorkerError (Call × Handle ν × ω) :=
  match handle.state.refusal? with
  | some error => .error error
  | none =>
    let (call, worker, surroundings) :=
      transport.call request reception ⟨handle.timeout, abandonAfter⟩ handle.worker surroundings
    .ok (call, { handle with worker, state := .busy }, surroundings)

/-- Issue a request and wait for its outcome, at most as long as the timeout says; a caller may walk
away earlier, and then the handle stays busy. -/
def issue (transport : Transport ν ω) (handle : Handle ν) (request : Request)
    (reception : Reception) (abandonAfter : Option Nat) (surroundings : ω) :
    Issued × Handle ν × ω :=
  match handle.call transport request reception abandonAfter surroundings with
  | .error error => (.refused error, handle, surroundings)
  | .ok (call, handle, surroundings) =>
    let (outcome, handle, surroundings) := handle.conclude transport call.ending surroundings
    (⟨call.happenings, outcome⟩, handle, surroundings)

/-- Release a handle: its worker is stopped and its slot given back. -/
def release (transport : Transport ν ω) (handle : Handle ν) (surroundings : ω) :
    Handle ν × ω :=
  let (handle, surroundings) := handle.shutdown transport surroundings
  ({ handle with holdsSlot := false }, surroundings)

/-- Drop a handle: its worker is killed, unless it has been stopped. -/
def drop (transport : Transport ν ω) (handle : Handle ν) (surroundings : ω) : ω :=
  if handle.state.isTerminal then surroundings
  else (transport.kill handle.worker surroundings).2

end Handle

end GateBench.Worker
