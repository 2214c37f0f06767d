import GateBench.Worker.Serve

/-!
Workers behind pipes: a child process reads requests and writes frames, a line each.  Requests are
numbered from one; a call reads lines until one of them decides it.
-/

namespace GateBench.Worker

open GateBench.Message

variable [JsonWording]

/-- What is read until a request is decided: its events, its outcome unless the lines run out first,
and the lines left. -/
structure Reading where
  events : List RunEvent
  outcome : Option (Except WorkerError Response)
  rest : List Line

/-- A reading decided by the line in front of `rest`. -/
def Reading.decided (outcome : Except WorkerError Response) (rest : List Line) : Reading :=
  ⟨[], some outcome, rest⟩

/-- Read lines until the request of an id and a kind is decided.  Blank lines are passed over; only
a run has events. -/
def readReply (id : Nat) (kind : RequestKind) : List Line → Reading
  | [] => ⟨[], none, []⟩
  | .error fault :: rest => .decided (.error (invalidLine fault)) rest
  | .ok line :: rest =>
    match decodeLine Outbound.decode line with
    | .error .empty => readReply id kind rest
    | .error error => .decided (.error (.protocol error)) rest
    | .ok frame =>
      match frame.expectId id with
      | .error error => .decided (.error (.protocol error)) rest
      | .ok (.reply _ response) => .decided (acceptReply kind response) rest
      | .ok (.event _ event) =>
        if kind = .run then
          let reading := readReply id kind rest
          { reading with events := event :: reading.events }
        else .decided (.error (.protocol (.unexpectedReply kind "event"))) rest

/-- A child with a state of type `κ`: what it writes when a line comes in, and whether it has
ended. -/
structure Child (κ : Type) where
  receive : String → κ → List Line × κ
  hasEnded : κ → Bool

/-- The host's end of the pipes to a child: the lines that are written and not yet read. -/
structure PipeWorker (κ : Type) where
  child : κ
  unread : List Line := []
  nextId : Nat := 1
  terminated : Bool := false

/-- The failure to write to a child that has ended. -/
def brokenPipe : WorkerError :=
  .io "Broken pipe (os error 32)"

namespace PipeWorker

variable {κ : Type}

/-- Send a request and read until it is decided.  An outcome is missing when the child is still
there but writes no more. -/
def call (kind : Child κ) (worker : PipeWorker κ) (request : Request) :
    List RunEvent × Option (Except WorkerError Response) × PipeWorker κ :=
  let id := worker.nextId
  if worker.terminated then ([], some (.error .terminated), worker)
  else if kind.hasEnded worker.child then
    ([], some (.error brokenPipe), { worker with nextId := id + 1 })
  else
    let (written, child) := kind.receive (Inbound.line ⟨id, request⟩) worker.child
    let reading := readReply id request.kind (worker.unread ++ written)
    let outcome :=
      if reading.outcome.isNone && kind.hasEnded child then some (.error .disconnected)
      else reading.outcome
    (reading.events, outcome, { worker with child, unread := reading.rest, nextId := id + 1 })

/-- Stop the child. -/
def stop (worker : PipeWorker κ) : PipeWorker κ :=
  { worker with terminated := true }

end PipeWorker

/-- A child that serves requests with a local worker. -/
def servingChild : Child LocalWorker where
  receive line worker :=
    let (frames, worker) := serveLine worker line
    ((Text.linesOf (framesText frames)).map .ok, worker)
  hasEnded _ := false

/-- A child that serves requests as far as it is read: it breaks off a request at more than `room`
events. -/
def servingChildWithin (room : Nat) : Child LocalWorker where
  receive line worker :=
    let (lines, served) :=
      servingChild.receive line { worker with engine := worker.engine.within room }
    (lines, { served with engine := worker.engine })
  hasEnded := servingChild.hasEnded

/-- A child that answers each line with the next of some lists of lines, and ends when it has none
left; it keeps the lines it has answered. -/
structure AnsweringChild where
  answers : List (List Line)
  received : List String := []

/-- How an answering child acts. -/
def answeringChild : Child AnsweringChild where
  receive line child :=
    match child.answers with
    | [] => ([], child)
    | answer :: answers => (answer, ⟨answers, child.received ++ [line]⟩)
  hasEnded child := child.answers.isEmpty

/-- The failure to start a program that does not exist. -/
def noSuchProgram (program : String) : WorkerError :=
  .spawn (program ++ ": No such file or directory (os error 2)")

/-- What a caller sees of the events and the outcome of a call.  A call that is undecided, or that
has more events than there is room for, lasts until its time runs out. -/
def seenCall (reception : Reception) (patience : Patience) (events : List RunEvent)
    (outcome : Option (Except WorkerError Response)) : Call :=
  let room := roomFor reception patience
  if room < events.length then ⟨reception.happenings (events.take room), patience.expiry⟩
  else ⟨reception.happenings events, outcome.elim patience.expiry CallEnd.ofOutcome⟩

/-- Workers behind pipes to children that start in a state, or fail to start.  How a child acts may
depend on how many of its events are read. -/
def pipeWorkers {κ : Type} (kind : (room : Nat) → Child κ) (start : Except WorkerError κ) :
    Transport (PipeWorker κ) Unit where
  spawn surroundings := (start.map fun child => { child }, surroundings)
  call request reception patience worker surroundings :=
    let (events, outcome, worker) :=
      worker.call (kind (roomFor reception patience + 1)) request
    (seenCall reception patience events outcome, worker, surroundings)
  terminate worker surroundings := (worker.stop, surroundings)
  kill worker surroundings := (worker.stop, surroundings)

end GateBench.Worker
