import GateBench.Message.Frame

/-!
What can go wrong between a host and a worker.
-/

namespace GateBench.Worker

open GateBench.Message

/-- Why a request has no good reply. -/
inductive WorkerError where
  | timeout (milliseconds : Nat)
  | failure (fault : WorkerFault)
  | terminated
  | busy
  | unusable
  | unavailable (capacity : Nat)
  | protocol (error : FrameError)
  | disconnected
  | spawn (reason : String)
  | crashed (reason : String)
  | io (reason : String)
deriving DecidableEq, Repr

/-- A worker error in words. -/
def WorkerError.message : WorkerError → String
  | .timeout milliseconds => "Worker timed out after " ++ toString milliseconds ++ " ms"
  | .failure fault => "Worker failed: " ++ fault.text
  | .terminated => "Worker handle is terminated"
  | .busy => "A request is already in flight on this worker"
  | .unusable => "Worker is unusable after a failed request"
  | .unavailable capacity =>
    "No worker available: all " ++ toString capacity ++ " slots are in use"
  | .protocol error => "Protocol error: " ++ error.message
  | .disconnected => "Worker disconnected before replying"
  | .spawn reason => "Failed to spawn worker: " ++ reason
  | .crashed reason => "Worker crashed: " ++ reason
  | .io reason => "I/O error: " ++ reason

/-- What a worker error is due to, as far as that is an error of its own, each with its own cause
behind it. -/
def WorkerError.causes : WorkerError → List String
  | .io reason => [reason]
  | .protocol error => error.message :: error.cause?.toList
  | _ => []

/-- A worker error in words, and behind it what it is due to. -/
def WorkerError.fullMessage (error : WorkerError) : String :=
  ": ".intercalate (error.message :: error.causes)

/-- Accept a reply only to the kind of request that was sent. -/
def acceptReply (kind : RequestKind) (response : Response) : Except WorkerError Response :=
  (response.expectKind kind).mapError .protocol

end GateBench.Worker
