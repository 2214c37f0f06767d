import GateBench.Worker.Local

/-!
Calls of local workers, move by move.  The engine works on a thread of its own and sends its events
into a buffer; the worker takes them out of it one by one and delivers them to a sink, which the
receiver empties.  Each side waits only where there is no room, or nothing to take.  A schedule is
any list of moves, so what holds after every schedule holds however the sides come to turn.
-/

namespace GateBench.Worker

open GateBench.Message

/-- A channel with room for so many events: all events that were sent into it, and how many of them
were taken out.  It is open as long as somebody may take events out. -/
structure Channel where
  capacity : Nat
  isOpen : Bool := true
  sent : List RunEvent := []
  taken : Nat := 0
deriving DecidableEq, Repr

namespace Channel

/-- The events that wait in a channel, oldest first. -/
def waiting (channel : Channel) : List RunEvent :=
  channel.sent.drop channel.taken

/-- Whether there is room for one more event. -/
def hasRoom (channel : Channel) : Bool :=
  channel.waiting.length < channel.capacity

/-- Send an event. -/
def send (channel : Channel) (event : RunEvent) : Channel :=
  { channel with sent := channel.sent ++ [event] }

/-- Take the oldest waiting event out. -/
def take (channel : Channel) : Channel :=
  { channel with taken := channel.taken + 1 }

/-- Close a channel. -/
def close (channel : Channel) : Channel :=
  { channel with isOpen := false }

/-- The receiver takes an event out, as long as it is there and one waits. -/
def receive (channel : Channel) : Option Channel :=
  if channel.isOpen && !channel.waiting.isEmpty then some channel.take else none

/-- The events that have reached a sink.  None reach where they are discarded. -/
def reached (sink : Option Channel) : List RunEvent :=
  (sink.map (·.sent)).getD []

end Channel

/-- The channel behind a reception, unless events are discarded. -/
def Reception.channel? : Reception → Option Channel
  | .discarded => none
  | .closed => some { capacity := 1, isOpen := false }
  | .buffered capacity | .consumed capacity => some { capacity }

/-- How far a call has come: it passes events on; or it passes on what is left since the engine has
ended with a response; or it has returned; or its caller has dropped it. -/
inductive CallPhase where
  | forwarding
  | draining (response : Response)
  | returned (reply : Except WorkerError Response)
  | dropped

/-- A call under way.  `told` holds the events of the engine with the answer to each, whether it was
heard; `held` is an event that the worker has taken from the buffer and not yet delivered. -/
structure LocalCall where
  kind : RequestKind
  engine : Dialogue Ending
  cancelled : Bool
  buffer : Channel
  sink : Option Channel
  told : List (RunEvent × Bool) := []
  held : Option RunEvent := none
  phase : CallPhase := .forwarding

/-- A move of one of the sides: the engine works on; the worker takes an event from the buffer,
delivers the event it holds, notices that the engine has ended, or returns behind the last event;
the receiver takes an event or goes away; the caller drops the call, or stops the worker after
that. -/
inductive Move where
  | work
  | forward
  | deliver
  | join
  | finish
  | receive
  | close
  | drop
  | stop
deriving DecidableEq, Repr

namespace LocalCall

/-- The start of a call. -/
def start (worker : LocalWorker) (request : Request) (eventBuffer : Nat)
    (sink : Option Channel) : LocalCall :=
  { kind := request.kind
    engine := worker.engine.serve request
    cancelled := worker.cancelled
    buffer := { capacity := max eventBuffer 1 }
    sink }

/-- Whether a call passes events on. -/
def isUnderWay (call : LocalCall) : Bool :=
  match call.phase with
  | .forwarding | .draining _ => true
  | .returned _ | .dropped => false

/-- End a call, after which nobody takes events from the engine's buffer. -/
def enter (call : LocalCall) (phase : CallPhase) : LocalCall :=
  { call with phase, held := none, buffer := call.buffer.close }

/-- The engine hears the answer to its event. -/
def hear (call : LocalCall) (event : RunEvent) (heard : Bool)
    (next : Bool → Dialogue Ending) : LocalCall :=
  { call with engine := next heard, told := call.told ++ [(event, heard)] }

/-- The engine asks whether to go on, or tells an event, which waits for room in the buffer. -/
def work (call : LocalCall) : Option LocalCall :=
  match call.engine with
  | .done _ => none
  | .ask next => some { call with engine := next (!call.cancelled) }
  | .tell event next =>
    if !call.buffer.isOpen then some (call.hear event false next)
    else if call.buffer.hasRoom then
      some { call.hear event true next with buffer := call.buffer.send event }
    else none

/-- The worker takes an event from the buffer. -/
def forward (call : LocalCall) : Option LocalCall :=
  match call.held, call.buffer.waiting with
  | none, event :: _ =>
    if call.isUnderWay then some { call with held := some event, buffer := call.buffer.take }
    else none
  | _, _ => none

/-- The worker finds nobody to deliver an event to.  While the engine works, that cancels it;
afterwards, the rest of the events is given up. -/
def giveUp (call : LocalCall) : LocalCall :=
  match call.phase with
  | .draining response => call.enter (.returned (acceptReply call.kind response))
  | _ => { call with held := none, cancelled := true }

/-- The worker delivers the event it holds, which waits for room in the sink. -/
def deliver (call : LocalCall) : Option LocalCall :=
  match call.held, call.sink with
  | none, _ => none
  | some _, none => some { call with held := none }
  | some event, some sink =>
    if !sink.isOpen then some call.giveUp
    else if sink.hasRoom then some { call with held := none, sink := some (sink.send event) }
    else none

/-- The worker notices that the engine has ended.  One that broke down leaves its last events
behind. -/
def join (call : LocalCall) : Option LocalCall :=
  match call.phase, call.held, call.engine with
  | .forwarding, none, .done (.ok response) => some { call with phase := .draining response }
  | .forwarding, none, .done (.error reason) =>
    some (call.enter (.returned (.error (.crashed reason))))
  | _, _, _ => none

/-- The worker returns when the engine has ended and no event is left. -/
def finish (call : LocalCall) : Option LocalCall :=
  match call.phase, call.held, call.buffer.waiting with
  | .draining response, none, [] =>
    some (call.enter (.returned (acceptReply call.kind response)))
  | _, _, _ => none

/-- The receiver takes an event. -/
def receive (call : LocalCall) : Option LocalCall :=
  (call.sink.bind Channel.receive).map fun sink => { call with sink := some sink }

/-- The caller drops a call that is under way. -/
def drop (call : LocalCall) : Option LocalCall :=
  if call.isUnderWay then some (call.enter .dropped) else none

/-- The worker is stopped, as long as no call is under way. -/
def stop (call : LocalCall) : Option LocalCall :=
  if call.isUnderWay then none else some { call with cancelled := true }

/-- The call after a move, if the move can be made. -/
def step (call : LocalCall) : Move → Option LocalCall
  | .work => call.work
  | .forward => call.forward
  | .deliver => call.deliver
  | .join => call.join
  | .finish => call.finish
  | .receive => call.receive
  | .close => some { call with sink := call.sink.map Channel.close }
  | .drop => call.drop
  | .stop => call.stop

/-- The call after a list of moves.  A move that cannot be made changes nothing. -/
def run (call : LocalCall) (schedule : List Move) : LocalCall :=
  schedule.foldl (fun call move => (call.step move).getD call) call

/-- The events that have reached the sink. -/
def delivered (call : LocalCall) : List RunEvent :=
  Channel.reached call.sink

/-- What a call has returned. -/
def returned? (call : LocalCall) : Option (Except WorkerError Response) :=
  match call.phase with
  | .returned reply => some reply
  | _ => none

/-- What the caller sees of a call, whose time runs out if it has not returned. -/
def seen (call : LocalCall) (patience : Patience) : Call :=
  ⟨call.delivered.map .delivered, call.returned?.elim patience.expiry CallEnd.ofOutcome⟩

end LocalCall

/-- Local workers whose calls follow schedules, each the next of a list. -/
def scheduledWorkers (engine : Engine) (eventBuffer : Nat) :
    Transport LocalWorker (List (List Move)) where
  spawn schedules := (.ok { engine }, schedules)
  call request reception patience worker schedules :=
    if worker.isStopped then (⟨[], .failed .terminated⟩, worker, schedules)
    else
      let call := (LocalCall.start worker request eventBuffer reception.channel?).run
        (schedules.headD [])
      (call.seen patience, { worker with cancelled := call.cancelled }, schedules.tail)
  terminate worker schedules := (worker.stop, schedules)
  kill worker schedules := (worker.stop, schedules)

namespace LocalCall

/-- A call whose engine tells one event, with room for one event on each side. -/
def ofOneEvent (event : RunEvent) : LocalCall :=
  start { engine := ⟨"one", fun _ => .tell event fun _ => .done (.ok (.runComplete 1))⟩ }
    (.run [] none 1 .base) 1 (some { capacity := 1 })

example : ((ofOneEvent ⟨"0", 0⟩).run [.work, .forward, .deliver, .join, .finish]).delivered =
    [⟨"0", 0⟩] := by decide

example :
    ((ofOneEvent ⟨"0", 0⟩).run [.work, .join, .finish, .forward, .deliver, .finish]).delivered =
    [⟨"0", 0⟩] := by decide

example : ((ofOneEvent ⟨"0", 0⟩).run [.close, .work, .forward, .deliver]).cancelled = true := by
  decide

end LocalCall

end GateBench.Worker
