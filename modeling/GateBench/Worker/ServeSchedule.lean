import GateBench.Worker.Schedule
import GateBench.Worker.Serve

/-!
Serving lines, move by move.  Every request is a call that follows a schedule of its own; whoever
writes the frames takes the events out of its sink, and writes the reply behind the last of them.
-/

namespace GateBench.Worker

open GateBench.Message

variable [JsonWording]

/-- The moves of a call whose receiver stays and which nobody drops. -/
def Move.isSteady : Move → Bool
  | .close | .drop | .stop => false
  | _ => true

/-- What a request to a local worker comes to by a schedule, if it returns. -/
def LocalWorker.callBy (worker : LocalWorker) (schedule : List Move) (request : Request) :
    Option LocalOutcome :=
  if worker.isStopped then some ⟨[], .error .terminated, worker⟩
  else
    let sink : Channel := { capacity := defaultEventBuffer }
    let call := (LocalCall.start worker request defaultEventBuffer (some sink)).run
      (schedule.filter (·.isSteady))
    call.returned?.map fun reply =>
      ⟨call.delivered, reply, { worker with cancelled := call.cancelled }⟩

/-- Serve lines with a worker that has written `written` replies so far.  The requests follow the
schedules in order; one without a schedule, or whose schedule ends before it returns, is never
answered. -/
def serveBy (worker : LocalWorker) (written : Nat) (schedules : List (List Move)) :
    List Line → Option Served
  | [] => some ⟨[], .ok written⟩
  | .error fault :: _ => some ⟨[], .error (invalidLine fault)⟩
  | .ok line :: others =>
    match LineMeaning.ofLine line with
    | .nothing => serveBy worker written schedules others
    | .invalid id error => do
      let served ← serveBy worker (written + 1) schedules others
      return { served with frames := .reply id (invalidRequest error) :: served.frames }
    | .request ⟨id, request⟩ => do
      let outcome ← worker.callBy (← schedules.head?) request
      let served ← serveBy outcome.worker (written + 1) schedules.tail others
      return { served with frames := outcome.frames id ++ served.frames }

end GateBench.Worker
