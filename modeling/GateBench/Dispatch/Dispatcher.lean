import GateBench.Dispatch.Document
import GateBench.Dispatch.Error
import GateBench.Dispatch.Lens
import GateBench.Histogram.Aggregator
import GateBench.Worker.Local
import GateBench.Worker.Pool

/-!
Commands on the active document.  Each acquires a worker, issues one request, releases the worker
whatever came of it, and shows the outcome: histograms and failures on one panel, circuits on
another.
-/

namespace GateBench.Dispatch

open GateBench.Display GateBench.Message GateBench.Worker

/-- A dispatcher: the pool of its workers, its panels, and what all commands share. -/
structure Dispatcher (σ τ : Type) where
  pool : Pool
  histogramPanel : Panel σ
  circuitPanel : Panel τ
  policy : RefreshPolicy := {}
  eventBuffer : Nat := defaultEventBuffer
  profile : Profile := .unrestricted

/-- A run whose events are coming in: those that wait, oldest first, the counts of those taken, and
the panel that shows them. -/
structure Stream (σ : Type) where
  aggregator : Aggregator
  waiting : List RunEvent
  panel : Panel σ

namespace Stream

variable {σ : Type}

/-- Post the counts to the panel. -/
def refresh (kind : SurfaceKind σ) (stream : Stream σ) : Except DisplayError Unit × Stream σ :=
  let (result, panel) := stream.panel.post kind (.ofHistogram stream.aggregator.histogram)
  (result, { stream with panel })

/-- Count the first waiting event at a time, and refresh the panel if that is due. -/
def take (kind : SurfaceKind σ) (time : Nat) (stream : Stream σ) :
    Except DisplayError Unit × Stream σ :=
  match stream.waiting with
  | [] => (.ok (), stream)
  | event :: waiting =>
    let (due, aggregator) := stream.aggregator.observe time event
    let stream := { stream with aggregator, waiting }
    if due then stream.refresh kind else (.ok (), stream)

/-- One happening of the call. -/
def step (kind : SurfaceKind σ) (stream : Stream σ) :
    Happening → Except DisplayError Unit × Stream σ
  | .delivered event => (.ok (), { stream with waiting := stream.waiting ++ [event] })
  | .taken time => stream.take kind time

/-- Follow a call; a display that fails ends it early. -/
def follow (kind : SurfaceKind σ) (stream : Stream σ) :
    List Happening → Except DisplayError Unit × Stream σ
  | [] => (.ok (), stream)
  | happening :: others =>
    match stream.step kind happening with
    | (.error error, stream) => (.error error, stream)
    | (.ok (), stream) => stream.follow kind others

/-- Count all waiting events without a refresh. -/
def drain (stream : Stream σ) : Stream σ :=
  let count (aggregator : Aggregator) (event : RunEvent) : Aggregator :=
    (aggregator.observe aggregator.lastRefresh event).2
  { stream with aggregator := stream.waiting.foldl count stream.aggregator, waiting := [] }

end Stream

/-- What a check reports. -/
structure CheckReport where
  diagnostics : List Diagnostic
  operations : List OperationSummary
deriving DecidableEq, Repr

/-- Whether a report holds an error. -/
def CheckReport.hasErrors (report : CheckReport) : Bool :=
  report.diagnostics.any (·.isError)

/-- The commands offered for a checked document. -/
def CheckReport.lenses (report : CheckReport) : List Lens :=
  lensesOf report.operations

/-- The report in the reply to a check. -/
def CheckReport.ofReply : Except WorkerError Response → Except DispatchError CheckReport
  | .ok (.checked diagnostics operations) => .ok ⟨diagnostics, operations⟩
  | .ok other => .error (.worker (.protocol (.unexpectedReply .check other.kindText)))
  | .error error => .error (.ofWorker error)

/-- The outcome of drawing a circuit in the reply to the request for it. -/
def outcomeOfReply : Except WorkerError Response → CircuitOutcome
  | .ok (.circuit diagram) => .circuit diagram
  | .ok other => .error ("Unexpected '" ++ other.kindText ++ "' reply")
  | .error error => .error (DispatchError.ofWorker error).message

namespace Dispatcher

variable {ν ω σ τ : Type}

/-- Issue a request to a new worker and release the worker.  Nobody listens to events. -/
def exchange (transport : Transport ν ω) (dispatcher : Dispatcher σ τ) (request : Request)
    (surroundings : ω) : Except WorkerError Response × Dispatcher σ τ × ω :=
  match dispatcher.pool.acquire transport surroundings with
  | (.error error, pool, surroundings) => (.error error, { dispatcher with pool }, surroundings)
  | (.ok handle, pool, surroundings) =>
    let (issued, handle, surroundings) :=
      handle.issue transport request .discarded none surroundings
    let (_, pool, surroundings) := pool.release transport handle surroundings
    (issued.outcome.getD (.error .busy), { dispatcher with pool }, surroundings)

/-- Run a request on a handle and count its events as they come in.  A panel that fails makes the
dispatcher walk away from the call.  Events that still wait are counted when the reply is good, and
forgotten otherwise; the whole histogram is posted last. -/
def streamRun (transport : Transport ν ω) (kind : SurfaceKind σ) (handle : Handle ν)
    (request : Request) (eventBuffer : Nat) (stream : Stream σ) (surroundings : ω) :
    Except DispatchError Histogram × Panel σ × Handle ν × ω :=
  match handle.call transport request (.consumed (max eventBuffer 1)) none surroundings with
  | .error error => (.error (.ofWorker error), stream.panel, handle, surroundings)
  | .ok (call, handle, surroundings) =>
    match stream.follow kind call.happenings with
    | (.error error, stream) => (.error (.display error), stream.panel, handle, surroundings)
    | (.ok (), stream) =>
      match handle.conclude transport call.ending surroundings with
      | (some (.ok _), handle, surroundings) =>
        let (shown, stream) := stream.drain.refresh kind
        let result := match shown with
          | .ok () => .ok stream.aggregator.histogram
          | .error error => .error (.display error)
        (result, stream.panel, handle, surroundings)
      | (some (.error error), handle, surroundings) =>
        (.error (.ofWorker error), stream.panel, handle, surroundings)
      | (none, handle, surroundings) =>
        (.error (.worker .busy), stream.panel, handle, surroundings)

/-- Post a failure to the histogram panel, as far as that can be done. -/
def postFailure (kind : SurfaceKind σ) (dispatcher : Dispatcher σ τ) (title : String)
    (error : DispatchError) : Dispatcher σ τ :=
  { dispatcher with
    histogramPanel := (dispatcher.histogramPanel.post kind (.error title error.message)).2 }

/-- Run a document's entry point, or the operation named, and show the histogram of its outcomes. -/
def runHistogram (transport : Transport ν ω) (kind : SurfaceKind σ)
    (dispatcher : Dispatcher σ τ) (document : Option Document) (entry : Option String)
    (shots : Nat) (surroundings : ω) :
    Except DispatchError Histogram × Dispatcher σ τ × ω :=
  match document with
  | none => (.error .noActiveDocument, dispatcher, surroundings)
  | some document =>
    let title := document.stem ++ " histogram"
    match dispatcher.pool.acquire transport surroundings with
    | (.error error, pool, surroundings) =>
      let error := DispatchError.ofWorker error
      (.error error, { dispatcher with pool }.postFailure kind title error, surroundings)
    | (.ok handle, pool, surroundings) =>
      let request := .run document.sources entry shots dispatcher.profile
      let stream : Stream σ := ⟨.start shots dispatcher.policy 0, [], dispatcher.histogramPanel⟩
      let (result, histogramPanel, handle, surroundings) :=
        streamRun transport kind handle request dispatcher.eventBuffer stream surroundings
      let (_, pool, surroundings) := pool.release transport handle surroundings
      let dispatcher := { dispatcher with pool, histogramPanel }
      match result with
      | .ok histogram => (.ok histogram, dispatcher, surroundings)
      | .error error => (.error error, dispatcher.postFailure kind title error, surroundings)

/-- Draw the circuit of a document's entry point, or of the operation named, and show it.  A failure
of the worker is shown in place of the circuit. -/
def renderCircuit (transport : Transport ν ω) (kind : SurfaceKind τ)
    (dispatcher : Dispatcher σ τ) (document : Option Document)
    (operation : Option QualifiedName) (surroundings : ω) :
    Except DispatchError CircuitResult × Dispatcher σ τ × ω :=
  match document with
  | none => (.error .noActiveDocument, dispatcher, surroundings)
  | some document =>
    let title := operation.elim document.stem QualifiedName.text
    let subtitle := document.name ++ " (" ++ dispatcher.profile.text ++ " profile)"
    let request := .circuit document.sources dispatcher.profile operation
    let (reply, dispatcher, surroundings) := dispatcher.exchange transport request surroundings
    let result := CircuitResult.titled title subtitle (outcomeOfReply reply)
    let (shown, circuitPanel) := dispatcher.circuitPanel.post kind (.circuit result)
    let dispatcher := { dispatcher with circuitPanel }
    match shown with
    | .ok () => (.ok result, dispatcher, surroundings)
    | .error error => (.error (.display error), dispatcher, surroundings)

/-- Check a document.  What is wrong with the document is in the report; a failure of the worker is
shown on the histogram panel. -/
def check (transport : Transport ν ω) (kind : SurfaceKind σ) (dispatcher : Dispatcher σ τ)
    (document : Option Document) (surroundings : ω) :
    Except DispatchError CheckReport × Dispatcher σ τ × ω :=
  match document with
  | none => (.error .noActiveDocument, dispatcher, surroundings)
  | some document =>
    let request := .check document.sources dispatcher.profile
    let (reply, dispatcher, surroundings) := dispatcher.exchange transport request surroundings
    match CheckReport.ofReply reply with
    | .ok report => (.ok report, dispatcher, surroundings)
    | .error error =>
      (.error error, dispatcher.postFailure kind (document.stem ++ " check") error, surroundings)

/-- Dispose of both panels. -/
def dispose (histograms : SurfaceKind σ) (circuits : SurfaceKind τ)
    (dispatcher : Dispatcher σ τ) : Dispatcher σ τ :=
  { dispatcher with
    histogramPanel := dispatcher.histogramPanel.dispose histograms
    circuitPanel := dispatcher.circuitPanel.dispose circuits }

end Dispatcher

end GateBench.Dispatch
