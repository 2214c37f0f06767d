import GateBench.Display.Panel
import GateBench.Worker.Error

/-!
What a command can fail with.
-/

namespace GateBench.Dispatch

open GateBench.Display GateBench.Message GateBench.Worker

/-- Why a command failed. -/
inductive DispatchError where
  | noActiveDocument
  | timeout (milliseconds : Nat)
  | failure (fault : WorkerFault)
  | unavailable (capacity : Nat)
  | display (error : DisplayError)
  | worker (error : WorkerError)
deriving DecidableEq, Repr

/-- The failure of a command whose worker failed. -/
def DispatchError.ofWorker : WorkerError → DispatchError
  | .timeout milliseconds => .timeout milliseconds
  | .failure fault => .failure fault
  | .unavailable capacity => .unavailable capacity
  | error => .worker error

/-- A failure in words. -/
def DispatchError.message : DispatchError → String
  | .noActiveDocument => "No active document"
  | .timeout milliseconds => "Timed out after " ++ toString milliseconds ++ " ms"
  | .failure fault => fault.text
  | .unavailable capacity => "No worker available (" ++ toString capacity ++ " in use)"
  | .display error => error.message
  | .worker error => error.message

/-- A failure in words, and behind it what it is due to. -/
def DispatchError.fullMessage : DispatchError → String
  | .worker error => error.fullMessage
  | error => error.message

end GateBench.Dispatch
