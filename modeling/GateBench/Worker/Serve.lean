import GateBench.Text.Lines
import GateBench.Worker.Local

/-!
The worker's side of a boundary: lines with requests come in, frames go out.  All requests are
served by one local worker, one after the other; a line that is no request is answered only if it
states an id.
-/

namespace GateBench.Worker

open GateBench.Message

variable [JsonWording]

/-- A line that comes in, as far as it is UTF-8. -/
abbrev Line := Except Text.Utf8Fault String

/-- The failure to read a line that is no UTF-8. -/
def invalidLine (fault : Text.Utf8Fault) : WorkerError :=
  .io fault.message

/-- The reply to a request that failed inside the worker. -/
def runtimeFault (error : WorkerError) : Response :=
  .failed ⟨.runtime, error.message, []⟩

/-- The reply to a line that is no request. -/
def invalidRequest (error : FrameError) : Response :=
  .failed ⟨.invalidRequest, error.message, []⟩

/-- The response that tells the outcome of a request. -/
def toldOutcome : Except WorkerError Response → Response
  | .ok response => response
  | .error error => runtimeFault error

/-- What a line asks for: nothing, an answer to what is no request but states an id, or a
request. -/
inductive LineMeaning where
  | nothing
  | invalid (id : Nat) (error : FrameError)
  | request (frame : Inbound)
deriving DecidableEq, Repr

/-- Read a line.  Blank lines, and lines that are no request and state no id, ask for nothing. -/
def LineMeaning.ofLine (line : String) : LineMeaning :=
  match decodeLine Inbound.decode line with
  | .error .empty => .nothing
  | .error error => (statedId? line).elim .nothing fun id => .invalid id error
  | .ok frame => .request frame

/-- The frames that answer the request of an id: the events first and the reply last. -/
def LocalOutcome.frames (outcome : LocalOutcome) (id : Nat) : List Outbound :=
  outcome.events.map (.event id) ++ [.reply id (toldOutcome outcome.reply)]

/-- Serve one line: the frames that answer it, and the worker afterwards. -/
def serveLine (worker : LocalWorker) (line : String) : List Outbound × LocalWorker :=
  match LineMeaning.ofLine line with
  | .nothing => ([], worker)
  | .invalid id error => ([.reply id (invalidRequest error)], worker)
  | .request ⟨id, request⟩ =>
    let outcome := worker.call request true
    (outcome.frames id, outcome.worker)

/-- Whether a frame is a reply. -/
def isReply : Outbound → Bool
  | .event .. => false
  | .reply .. => true

/-- What was written for lines, and how serving them ended: with the number of replies at the end of
the input, or with an error. -/
structure Served where
  frames : List Outbound
  ending : Except WorkerError Nat

/-- Serve lines with a worker that has written `written` replies so far. -/
def serveFrom (worker : LocalWorker) (written : Nat) : List Line → Served
  | [] => ⟨[], .ok written⟩
  | .error fault :: _ => ⟨[], .error (invalidLine fault)⟩
  | .ok line :: others =>
    let (frames, worker) := serveLine worker line
    let served := serveFrom worker (written + frames.countP isReply) others
    ⟨frames ++ served.frames, served.ending⟩

/-- Serve lines with an engine. -/
def serve (engine : Engine) (lines : List Line) : Served :=
  serveFrom { engine } 0 lines

/-- The text of frames, a line each. -/
def framesText (frames : List Outbound) : String :=
  String.join (frames.map fun frame => frame.line ++ "\n")

end GateBench.Worker
