import GateBench.Dispatch.Dispatcher
import GateBench.Proofs.Slots

/-!
Commands clean up behind themselves.  A command with a document lends out a handle of a new worker:
it acquires the worker, uses the handle once, and releases it.  However the use ends, the worker has
been called by then and may have been stopped at a deadline; the release stops it otherwise, and
gives the slot back.
-/

namespace GateBench

open Display Message Worker

namespace Worker

variable {ν ω : Type} {transport : Transport ν ω}

/-! ### Handles that are lent -/

/-- Acquire a worker, use its handle, and release it. -/
def Pool.lend (transport : Transport ν ω) (pool : Pool) (use : Handle ν → ω → Handle ν × ω)
    (surroundings : ω) : Option (Handle ν) × Pool × ω :=
  match pool.acquire transport surroundings with
  | (.error _, pool, surroundings) => (none, pool, surroundings)
  | (.ok handle, pool, surroundings) =>
    let (handle, surroundings) := use handle surroundings
    let (handle, pool, surroundings) := pool.release transport handle surroundings
    (some handle, pool, surroundings)

/-- What a handle has come to whose worker was called once: it has its slot, and the worker was also
told to terminate if the handle is terminated. -/
structure Handle.CalledOnce (before : Handle ν) (signals : List Signal) (after : Handle ν)
    (record : Recorded ω) : Prop where
  holdsSlot : after.holdsSlot = before.holdsSlot
  signals : record.signals =
    (if after.state = .terminated then [.terminate, .call] else [.call]) ++ signals

/-- A use of a handle calls its worker once, if the handle takes requests. -/
def Handle.CallsOnce (use : Handle ν → Recorded ω → Handle ν × Recorded ω) : Prop :=
  ∀ (handle : Handle ν) (record : Recorded ω), handle.state.accepts = true →
    handle.CalledOnce record.signals (use handle record).1 (use handle record).2

/-- The release of a handle that has called its worker once stops the worker, unless it was stopped
before. -/
theorem Handle.CalledOnce.release_signals (transport : Transport ν ω) {before after : Handle ν}
    {signals : List Signal} {record : Recorded ω}
    (hcalled : before.CalledOnce signals after record) :
    (after.release transport.recorded record).2.signals = [.terminate, .call] ++ signals := by
  rw [Handle.release_signals, hcalled.signals]
  split_ifs <;> rfl

/-- However a call ends, its handle has called the worker once. -/
theorem Handle.conclude_calledOnce (transport : Transport ν ω) (before handle : Handle ν)
    (hbusy : handle.state = .busy) (hslot : handle.holdsSlot = before.holdsSlot)
    (ending : CallEnd) (later : ω) (signals : List Signal) :
    before.CalledOnce signals
      (handle.conclude transport.recorded ending ⟨later, .call :: signals⟩).2.1
      (handle.conclude transport.recorded ending ⟨later, .call :: signals⟩).2.2 := by
  refine ⟨(conclude_holdsSlot ..).trans hslot, ?_⟩
  rw [conclude_signals, conclude_state _ _ _ _ hbusy]
  simp only [CallEnd.leaves_eq_terminated_iff]
  split_ifs <;> rfl

theorem Handle.issue_callsOnce (request : Request) (reception : Reception)
    (abandonAfter : Option Nat) :
    CallsOnce fun handle record =>
      (handle.issue transport.recorded request reception abandonAfter record).2 := by
  intro handle record haccepts
  rcases hcall : transport.call request reception ⟨handle.timeout, abandonAfter⟩ handle.worker
    record.surroundings with ⟨call, worker, later⟩
  simp only [issue_of_accepts haccepts (Transport.recorded_call hcall)]
  exact conclude_calledOnce transport handle { handle with worker, state := .busy } rfl rfl
    call.ending later record.signals

/-- How lending a handle may go, and what the transport is told, in order: no slot is free; the
worker does not start; or the worker is called, and terminated in the end. -/
inductive Pool.Lent (transport : Transport ν ω) (pool : Pool) (surroundings : ω) :
    Option (Handle ν) → List Signal → Prop where
  | full (hfull : pool.available = 0) : Lent transport pool surroundings none []
  | unstarted {error : WorkerError} (hspawn : (transport.spawn surroundings).1 = .error error) :
      Lent transport pool surroundings none [.spawn]
  | worked {worker : ν} (hspawn : (transport.spawn surroundings).1 = .ok worker)
      {handle : Handle ν} (hstate : handle.state = .terminated) (hslot : handle.holdsSlot = false) :
      Lent transport pool surroundings (some handle) [.spawn, .call, .terminate]

theorem Pool.lend_of_worker {pool : Pool} {surroundings later : ω} {worker : ν}
    (hfree : pool.available ≠ 0) (hspawn : transport.spawn surroundings = (.ok worker, later))
    {use : Handle ν → ω → Handle ν × ω} {used : Handle ν} {last : ω}
    (huse : use { worker, timeout := pool.timeout, holdsSlot := true } later = (used, last)) :
    pool.lend transport use surroundings =
      (some (used.release transport last).1,
        { pool with available := pool.available - 1 }.takeBack used.holdsSlot,
        (used.release transport last).2) := by
  rw [lend, acquire_of_worker hfree hspawn]
  simp only [huse]
  rfl

/-- Whatever is done with the handle, as long as it calls the worker once, a pool that has lent it
out is as before, and the worker is terminated. -/
theorem Pool.lend_lent {use : Handle ν → Recorded ω → Handle ν × Recorded ω}
    (huse : Handle.CallsOnce use) (pool : Pool) (surroundings : ω) :
    (pool.lend transport.recorded use { surroundings }).2.1 = pool ∧
      Lent transport pool surroundings (pool.lend transport.recorded use { surroundings }).1
        (pool.lend transport.recorded use { surroundings }).2.2.signals.reverse := by
  by_cases hfull : pool.available = 0
  · rw [lend, acquire_of_full hfull]
    exact ⟨rfl, .full hfull⟩
  · rcases hspawn : transport.spawn surroundings with ⟨error | worker, later⟩
    · have hrecorded : transport.recorded.spawn { surroundings } =
          (.error error, ⟨later, [.spawn]⟩) := Transport.recorded_spawn hspawn
      rw [lend, acquire_of_failure hfull hrecorded]
      exact ⟨rfl, .unstarted (congrArg Prod.fst hspawn)⟩
    · have hrecorded : transport.recorded.spawn { surroundings } =
          (.ok worker, ⟨later, [.spawn]⟩) := Transport.recorded_spawn hspawn
      have hcalled := huse { worker, timeout := pool.timeout, holdsSlot := true }
        ⟨later, [.spawn]⟩ rfl
      rcases hused : use { worker, timeout := pool.timeout, holdsSlot := true } ⟨later, [.spawn]⟩
        with ⟨used, last⟩
      rw [hused] at hcalled
      have hsignals := hcalled.release_signals transport
      rw [lend_of_worker hfull hrecorded hused]
      refine ⟨?_, ?_⟩
      · have hslot : used.holdsSlot = true := hcalled.holdsSlot
        have hrestored : pool.available - 1 + 1 = pool.available := by omega
        simp only [takeBack, hslot, if_true, hrestored]
      · rw [hsignals]
        exact .worked (congrArg Prod.fst hspawn) (Handle.release_state ..) rfl

end Worker

namespace Dispatch

variable {ν ω σ τ : Type}

/-! ### Commands -/

/-- A command, on a document if there is one. -/
inductive Command where
  | runHistogram (document : Option Document) (entry : Option String) (shots : Nat)
  | renderCircuit (document : Option Document) (operation : Option QualifiedName)
  | check (document : Option Document)

/-- The document that a command is given. -/
def Command.document : Command → Option Document
  | .runHistogram document _ _ | .renderCircuit document _ | .check document => document

namespace Dispatcher

/-- Obey a command. -/
def obey (transport : Transport ν ω) (histograms : SurfaceKind σ) (circuits : SurfaceKind τ)
    (dispatcher : Dispatcher σ τ) (command : Command) (surroundings : ω) :
    Except DispatchError Unit × Dispatcher σ τ × ω :=
  match command with
  | .runHistogram document entry shots =>
    let (result, dispatcher, surroundings) :=
      dispatcher.runHistogram transport histograms document entry shots surroundings
    (result.map fun _ => (), dispatcher, surroundings)
  | .renderCircuit document operation =>
    let (result, dispatcher, surroundings) :=
      dispatcher.renderCircuit transport circuits document operation surroundings
    (result.map fun _ => (), dispatcher, surroundings)
  | .check document =>
    let (result, dispatcher, surroundings) :=
      dispatcher.check transport histograms document surroundings
    (result.map fun _ => (), dispatcher, surroundings)

/-- What a command on a document does with the handle of its worker. -/
def use (transport : Transport ν ω) (histograms : SurfaceKind σ) (dispatcher : Dispatcher σ τ)
    (command : Command) (document : Document) (handle : Handle ν) (surroundings : ω) :
    Handle ν × ω :=
  match command with
  | .runHistogram _ entry shots =>
    (streamRun transport histograms handle
      (.run document.sources entry shots dispatcher.profile) dispatcher.eventBuffer
      ⟨.start shots dispatcher.policy 0, [], dispatcher.histogramPanel⟩ surroundings).2.2
  | .renderCircuit _ operation =>
    (handle.issue transport (.circuit document.sources dispatcher.profile operation) .discarded none
      surroundings).2
  | .check _ =>
    (handle.issue transport (.check document.sources dispatcher.profile) .discarded none
      surroundings).2

/-- Lend the handle of a worker to a command that has a document. -/
def lend (transport : Transport ν ω) (histograms : SurfaceKind σ) (dispatcher : Dispatcher σ τ)
    (command : Command) (surroundings : ω) : Option (Handle ν) × Pool × ω :=
  match command.document with
  | none => (none, dispatcher.pool, surroundings)
  | some document =>
    dispatcher.pool.lend transport (dispatcher.use transport histograms command document)
      surroundings

variable {transport : Transport ν ω} {histograms : SurfaceKind σ} {circuits : SurfaceKind τ}
  {dispatcher : Dispatcher σ τ} {command : Command} {surroundings : ω}

/-- An exchange lends out a handle for one request. -/
theorem exchange_eq_lend (request : Request) :
    ((dispatcher.exchange transport request surroundings).2.1.pool,
      (dispatcher.exchange transport request surroundings).2.2) =
    (dispatcher.pool.lend transport
      (fun handle surroundings =>
        (handle.issue transport request .discarded none surroundings).2) surroundings).2 := by
  unfold exchange Pool.lend
  rcases dispatcher.pool.acquire transport surroundings with ⟨error | handle, pool, later⟩ <;> rfl

/-- To the pool and to the workers, a command does what is done with the handle that it is lent. -/
theorem obey_eq_lend :
    ((dispatcher.obey transport histograms circuits command surroundings).2.1.pool,
      (dispatcher.obey transport histograms circuits command surroundings).2.2) =
    (dispatcher.lend transport histograms command surroundings).2 := by
  cases command with
  | runHistogram document entry shots =>
      cases document with
      | none => rfl
      | some document =>
          simp only [obey, runHistogram, lend, Command.document, Pool.lend, use]
          rcases dispatcher.pool.acquire transport surroundings with ⟨error | handle, pool, later⟩
          · rfl
          · dsimp only
            split <;> rfl
  | renderCircuit document operation =>
      cases document with
      | none => rfl
      | some document =>
          refine Eq.trans ?_
            (exchange_eq_lend (.circuit document.sources dispatcher.profile operation))
          simp only [obey, renderCircuit]
          split <;> rfl
  | check document =>
      cases document with
      | none => rfl
      | some document =>
          refine Eq.trans ?_ (exchange_eq_lend (.check document.sources dispatcher.profile))
          simp only [obey, check]
          split <;> rfl

theorem streamRun_callsOnce (request : Request) (eventBuffer : Nat) (stream : Stream σ) :
    Handle.CallsOnce fun handle (record : Recorded ω) =>
      (streamRun transport.recorded histograms handle request eventBuffer stream record).2.2 := by
  intro handle record haccepts
  rcases hcall : transport.call request (.consumed (max eventBuffer 1)) ⟨handle.timeout, none⟩
    handle.worker record.surroundings with ⟨call, worker, later⟩
  simp only [streamRun, Handle.call_of_accepts haccepts (Transport.recorded_call hcall)]
  rcases stream.follow histograms call.happenings with ⟨error | _, followed⟩
  · -- the dispatcher has walked away, and the handle stays busy
    exact ⟨rfl, rfl⟩
  · have hconcluded := Handle.conclude_calledOnce transport handle
      { handle with worker, state := .busy } rfl rfl call.ending later record.signals
    dsimp only
    split
    all_goals
      rename_i hconclude
      rw [hconclude] at hconcluded
      exact hconcluded

theorem use_callsOnce (document : Document) :
    Handle.CallsOnce (dispatcher.use transport.recorded histograms command document) := by
  cases command with
  | runHistogram _ entry shots => exact streamRun_callsOnce _ _ _
  | renderCircuit _ operation => exact Handle.issue_callsOnce _ _ _
  | check _ => exact Handle.issue_callsOnce _ _ _

theorem lend_lent {document : Document} (hdocument : command.document = some document) :
    (dispatcher.lend transport.recorded histograms command { surroundings }).2.1 =
        dispatcher.pool ∧
      dispatcher.pool.Lent transport surroundings
        (dispatcher.lend transport.recorded histograms command { surroundings }).1
        (dispatcher.lend transport.recorded histograms command
          { surroundings }).2.2.signals.reverse := by
  simp only [lend, hdocument]
  exact Pool.lend_lent (use_callsOnce document) dispatcher.pool surroundings

/-- Without a document nothing happens. -/
theorem obey_of_no_document (hdocument : command.document = none) :
    dispatcher.obey transport histograms circuits command surroundings =
      (.error .noActiveDocument, dispatcher, surroundings) := by
  cases command with
  | runHistogram document | renderCircuit document | check document =>
      obtain rfl : document = none := hdocument
      rfl

end Dispatcher

/-! ### Sessions -/

/-- A command that was obeyed: the dispatcher and what surrounded it before, what came of the
command, and the dispatcher and what its transport was told afterwards. -/
structure Performance (ω σ τ : Type) where
  command : Command
  before : Dispatcher σ τ
  surroundings : ω
  result : Except DispatchError Unit
  after : Dispatcher σ τ
  record : Recorded ω

namespace Dispatcher

/-- Obey a command, and keep a record of it. -/
def perform (transport : Transport ν ω) (histograms : SurfaceKind σ) (circuits : SurfaceKind τ)
    (dispatcher : Dispatcher σ τ) (command : Command) (surroundings : ω) : Performance ω σ τ :=
  let (result, after, record) :=
    dispatcher.obey transport.recorded histograms circuits command { surroundings }
  { command, before := dispatcher, surroundings, result, after, record }

/-- Obey one command after another. -/
def session (transport : Transport ν ω) (histograms : SurfaceKind σ) (circuits : SurfaceKind τ)
    (dispatcher : Dispatcher σ τ) : List Command → ω → List (Performance ω σ τ)
  | [], _ => []
  | command :: others, surroundings =>
    let performance := dispatcher.perform transport histograms circuits command surroundings
    performance ::
      performance.after.session transport histograms circuits others
        performance.record.surroundings

end Dispatcher

/-- What holds of a command that cleans up behind itself. -/
structure Performance.IsClean (transport : Transport ν ω) (histograms : SurfaceKind σ)
    (performance : Performance ω σ τ) : Prop where
  /-- As many slots are free as before. -/
  available : performance.after.pool.available = performance.before.pool.available
  /-- On a document, the command does to the pool and to the workers what is done with a handle that
  it is lent: if a worker starts, it is called and terminated, and so is its handle. -/
  lent : performance.command.document.isSome = true →
    ∃ handle?,
      performance.before.lend transport.recorded histograms performance.command
        { surroundings := performance.surroundings } =
          (handle?, performance.after.pool, performance.record) ∧
      performance.before.pool.Lent transport performance.surroundings handle?
        performance.record.signals.reverse
  /-- Without a document it fails, and nothing else happens. -/
  blank : performance.command.document = none →
    performance.result = .error .noActiveDocument ∧
      performance.after = performance.before ∧
      performance.record = { surroundings := performance.surroundings }

namespace Dispatcher

theorem perform_isClean (transport : Transport ν ω) (histograms : SurfaceKind σ)
    (circuits : SurfaceKind τ) (dispatcher : Dispatcher σ τ) (command : Command)
    (surroundings : ω) :
    (dispatcher.perform transport histograms circuits command surroundings).IsClean transport
      histograms := by
  cases hdocument : command.document with
  | none =>
      have hnothing : dispatcher.obey transport.recorded histograms circuits command
          { surroundings } = (.error .noActiveDocument, dispatcher, { surroundings }) :=
        obey_of_no_document hdocument
      rw [perform, hnothing]
      exact ⟨rfl, by simp [hdocument], fun _ => ⟨rfl, rfl, rfl⟩⟩
  | some document =>
      have hlend : ((dispatcher.obey transport.recorded histograms circuits command
          { surroundings }).2.1.pool,
          (dispatcher.obey transport.recorded histograms circuits command { surroundings }).2.2) =
            (dispatcher.lend transport.recorded histograms command { surroundings }).2 :=
        obey_eq_lend
      have hlent : (dispatcher.lend transport.recorded histograms command
          { surroundings }).2.1 = dispatcher.pool ∧ _ := lend_lent hdocument
      rcases hlends : dispatcher.lend transport.recorded histograms command { surroundings } with
        ⟨handle?, pool, record⟩
      rcases hobeys : dispatcher.obey transport.recorded histograms circuits command
        { surroundings } with ⟨result, after, told⟩
      rw [hlends] at hlend hlent
      rw [hobeys] at hlend
      obtain ⟨rfl, rfl⟩ := Prod.mk.inj hlend
      obtain ⟨hpool, hlent⟩ := hlent
      rw [perform, hobeys]
      exact ⟨congrArg _ hpool, fun _ => ⟨handle?, hlends, hlent⟩, by simp [hdocument]⟩

/-- Whatever the workers and the displays do, every command of a session cleans up behind itself. -/
theorem session_isClean (transport : Transport ν ω) (histograms : SurfaceKind σ)
    (circuits : SurfaceKind τ) (dispatcher : Dispatcher σ τ) (commands : List Command)
    (surroundings : ω) :
    (dispatcher.session transport histograms circuits commands surroundings).Forall
      (Performance.IsClean transport histograms) := by
  induction commands generalizing dispatcher surroundings with
  | nil => exact trivial
  | cons command others ih =>
      rw [session, List.forall_cons]
      exact ⟨perform_isClean transport histograms circuits dispatcher command surroundings, ih _ _⟩

end Dispatcher

end Dispatch

end GateBench
