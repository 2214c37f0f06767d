import GateBench.Worker.Error

/-!
Transports: how workers are started, called and stopped.  A call is seen as what happens while it
goes on and how it ends; whoever holds the worker acts on nothing else.
-/

namespace GateBench.Worker

open GateBench.Message

/-- Where the events of a call go: nowhere, to a receiver that has gone away, into a buffer that
nobody empties while the call goes on, or into a buffer that the caller empties, one event at a
time, whenever the worker waits. -/
inductive Reception where
  | discarded
  | closed
  | buffered (capacity : Nat)
  | consumed (capacity : Nat)
deriving DecidableEq, Repr

/-- Whether somebody listens to the events of a call. -/
def Reception.isAttached : Reception → Bool
  | .discarded | .closed => false
  | .buffered _ | .consumed _ => true

/-- What happens while a call goes on: an event comes in, or the caller takes the first of the
events that came in, at a time. -/
inductive Happening where
  | delivered (event : RunEvent)
  | taken (time : Nat)
deriving DecidableEq, Repr

/-- How long a call may last: the deadline of the handle, and the time after which the caller walks
away.  Times are in milliseconds from the start of the call. -/
structure Patience where
  deadline : Nat
  abandonAfter : Option Nat := none
deriving DecidableEq, Repr

/-- How a call ends: with a reply or an error of the worker, at the deadline, or unseen because the
caller walked away. -/
inductive CallEnd where
  | replied (response : Response)
  | failed (error : WorkerError)
  | deadline
  | abandoned
deriving Repr

/-- How a call ends whose time runs out. -/
def Patience.expiry (patience : Patience) : CallEnd :=
  if patience.abandonAfter.any (· < patience.deadline) then .abandoned else .deadline

/-- The time at which a call runs out of time. -/
def Patience.limit (patience : Patience) : Nat :=
  patience.abandonAfter.elim patience.deadline (min patience.deadline)

/-- A call from its start to its end. -/
structure Call where
  happenings : List Happening
  ending : CallEnd
deriving Repr

/-- The events that came in during a call, in order. -/
def Call.events (call : Call) : List RunEvent :=
  call.happenings.filterMap fun
    | .delivered event => some event
    | .taken _ => none

/-- The end of a call that came to an outcome. -/
def CallEnd.ofOutcome : Except WorkerError Response → CallEnd
  | .ok response => .replied response
  | .error error => .failed error

/-- How many events a worker passes on in a millisecond at most, where time is not told
otherwise. -/
def eventsPerMillisecond : Nat :=
  100

/-- How many events a call can pass on before its time runs out. -/
def roomFor (reception : Reception) (patience : Patience) : Nat :=
  let inTime := patience.limit * eventsPerMillisecond
  match reception with
  | .buffered capacity => min capacity inTime
  | _ => inTime

/-- What a caller sees of events: each comes in and is taken at once if the caller takes events. -/
def Reception.happenings (reception : Reception) (events : List RunEvent) : List Happening :=
  match reception with
  | .discarded | .closed => []
  | .buffered _ => events.map .delivered
  | .consumed _ => events.zipIdx.flatMap fun (event, index) =>
    [.delivered event, .taken (index / eventsPerMillisecond)]

/-- How workers with a state of type `ν` are handled in surroundings of type `ω`. -/
structure Transport (ν ω : Type) where
  spawn : ω → Except WorkerError ν × ω
  call : Request → Reception → Patience → ν → ω → Call × ν × ω
  terminate : ν → ω → ν × ω
  kill : ν → ω → ν × ω

/-- What a transport was told to do. -/
inductive Signal where
  | spawn
  | call
  | terminate
  | kill
deriving DecidableEq, Repr

/-- Surroundings that keep a record of what their transport was told, latest first. -/
structure Recorded (ω : Type) where
  surroundings : ω
  signals : List Signal := []

/-- A transport that also records what it is told. -/
def Transport.recorded {ν ω : Type} (transport : Transport ν ω) : Transport ν (Recorded ω) where
  spawn record :=
    let (result, surroundings) := transport.spawn record.surroundings
    (result, ⟨surroundings, .spawn :: record.signals⟩)
  call request reception patience worker record :=
    let (call, worker, surroundings) :=
      transport.call request reception patience worker record.surroundings
    (call, worker, ⟨surroundings, .call :: record.signals⟩)
  terminate worker record :=
    let (worker, surroundings) := transport.terminate worker record.surroundings
    (worker, ⟨surroundings, .terminate :: record.signals⟩)
  kill worker record :=
    let (worker, surroundings) := transport.kill worker record.surroundings
    (worker, ⟨surroundings, .kill :: record.signals⟩)

end GateBench.Worker
