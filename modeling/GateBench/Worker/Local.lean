import GateBench.Engine
import GateBench.Worker.Transport

/-!
Workers within the host: an engine, and a flag that tells it to stop.  Events are forwarded as they
are told, so with somebody listening an engine is never refused; a receiver that has gone away sets
the flag, and it stays set.
-/

namespace GateBench.Worker

open GateBench.Message

/-- How many events a local worker buffers between engine and host unless stated otherwise. -/
def defaultEventBuffer : Nat :=
  256

/-- A worker within the host. -/
structure LocalWorker where
  engine : Engine
  cancelled : Bool := false
  terminated : Bool := false

/-- What came of a request to a local worker. -/
structure LocalOutcome where
  events : List RunEvent
  reply : Except WorkerError Response
  worker : LocalWorker

namespace LocalWorker

/-- The name of a worker, after its engine. -/
def name (worker : LocalWorker) : String :=
  "local:" ++ worker.engine.name

/-- Whether a worker takes no more requests. -/
def isStopped (worker : LocalWorker) : Bool :=
  worker.terminated || worker.cancelled

/-- Stop a worker for good. -/
def stop (worker : LocalWorker) : LocalWorker :=
  { worker with cancelled := true, terminated := true }

/-- The other side of an engine, which is the flag: the engine goes on until it is set, and an event
that nobody hears sets it. -/
def forwarding (hearing : Bool) : Audience Bool where
  goesOn cancelled := (!cancelled, cancelled)
  hears cancelled _ := (true, cancelled || !hearing)

/-- Lead a dialogue to its end and keep the flag. -/
def converse {ρ : Type} (worker : LocalWorker) (hearing : Bool) (dialogue : Dialogue ρ) :
    ρ × List RunEvent × LocalWorker :=
  let conversation := dialogue.converse (forwarding hearing) worker.cancelled
  (conversation.result, if hearing then conversation.events else [],
    { worker with cancelled := conversation.audience })

/-- The answer to a request of a kind, once the engine has ended. -/
def answer (kind : RequestKind) : Ending → Except WorkerError Response
  | .ok response => acceptReply kind response
  | .error reason => .error (.crashed reason)

/-- Serve a request; `hearing` tells whether there is anybody to hear its events. -/
def call (worker : LocalWorker) (request : Request) (hearing : Bool) : LocalOutcome :=
  if worker.isStopped then ⟨[], .error .terminated, worker⟩
  else
    let (reply, events, worker) := worker.converse hearing (worker.engine.serve request)
    ⟨events, answer request.kind reply, worker⟩

end LocalWorker

/-- Workers within the host that share an engine. -/
def localWorkers (engine : Engine) : Transport LocalWorker Unit where
  spawn surroundings := (.ok { engine }, surroundings)
  call request reception patience worker surroundings :=
    if worker.isStopped then (⟨[], .failed .terminated⟩, worker, surroundings)
    else if patience.limit = 0 then (⟨[], patience.expiry⟩, worker, surroundings)
    else
      let dialogue := (worker.engine.serve request).within (roomFor reception patience)
      let (reply, events, worker) := worker.converse (reception ≠ .closed) dialogue
      let ending := match reply with
        | some reply => .ofOutcome (LocalWorker.answer request.kind reply)
        | none => patience.expiry
      (⟨reception.happenings events, ending⟩, worker, surroundings)
  terminate worker surroundings := (worker.stop, surroundings)
  kill worker surroundings := (worker.stop, surroundings)

end GateBench.Worker
