import GateBench.Proofs.HandleLife
import GateBench.Proofs.LocalCall
import Mathlib.Data.List.Induction

/-!
Requests one after another to a local worker.  What one call leaves behind for the next is the flag
that tells the engine to stop.  It is set exactly if the worker delivers an event whose listener has
gone before it notices that the engine has ended; which of the two it comes to first is a matter of
the order of the moves, and the reply may be the same either way.
-/

namespace GateBench.Worker

open Message

/-! ### The flag in one call -/

namespace LocalCall

variable {call next : LocalCall} {move : Move}

/-- Whether the worker holds an event that nobody will hear, and has not noticed that its engine has
ended. -/
def losesListener (call : LocalCall) : Bool :=
  match call.phase with
  | .draining _ => false
  | _ => call.held.isSome && call.sink.any (!·.isOpen)

/-- Whether the worker comes to deliver such an event while the call follows a schedule. -/
def losesListenerIn (call : LocalCall) : List Move → Bool
  | [] => false
  | move :: others =>
    (move = .deliver && call.losesListener) ||
      ((call.step move).getD call).losesListenerIn others

/-- Giving an event up sets the flag unless the worker has noticed that its engine has ended. -/
theorem giveUp_cancelled (hheld : call.held.isSome = true)
    (hclosed : call.sink.any (!·.isOpen) = true) :
    call.giveUp.cancelled = (call.cancelled || call.losesListener) := by
  unfold giveUp losesListener
  cases call.phase <;> simp [hheld, hclosed, enter]

/-- With a listener, or without an event to deliver, nothing is lost. -/
theorem losesListener_eq_false (call : LocalCall)
    (hheard : call.held = none ∨ call.sink.all (·.isOpen) = true) :
    call.losesListener = false := by
  unfold losesListener
  rcases hheard with hheld | hopen
  · cases call.phase <;> simp [hheld]
  · cases hsink : call.sink <;> cases call.phase <;> simp_all

theorem deliver_cancelled (call : LocalCall) :
    ((call.deliver).getD call).cancelled = (call.cancelled || call.losesListener) := by
  cases hheld : call.held with
  | none =>
      rw [losesListener_eq_false _ (.inl hheld), Bool.or_false, deliver, hheld]
      rfl
  | some event =>
      cases hsink : call.sink with
      | none =>
          have hkept := call.losesListener_eq_false (.inr (by simp [hsink]))
          simp [deliver, hheld, hsink, hkept]
      | some sink =>
          cases hopen : sink.isOpen with
          | true =>
              have hkept := call.losesListener_eq_false (.inr (by simp [hsink, hopen]))
              rw [hkept, Bool.or_false, deliver, hheld, hsink]
              simp only [hopen, Bool.not_true, Bool.false_eq_true, if_false]
              split_ifs <;> rfl
          | false =>
              have hgiven : call.deliver = some call.giveUp := by
                simp [deliver, hheld, hsink, hopen]
              rw [hgiven]
              exact giveUp_cancelled (by simp [hheld]) (by simp [hsink, hopen])

/-- No other move touches the flag, unless the worker is stopped. -/
theorem cancelled_of_step (hdeliver : move ≠ .deliver) (hstop : move ≠ .stop)
    (hstep : call.step move = some next) : next.cancelled = call.cancelled := by
  cases move with
  | work =>
      rcases work_cases hstep with ⟨_, _, rfl⟩ | ⟨_, _, _, _, rfl⟩ | ⟨_, _, _, _, _, rfl⟩ <;> rfl
  | forward =>
      obtain ⟨_, _, _, _, _, rfl⟩ := forward_cases hstep
      rfl
  | join =>
      obtain ⟨_, _, ⟨_, _, rfl⟩ | ⟨_, _, rfl⟩⟩ := join_cases hstep <;> rfl
  | finish =>
      obtain ⟨_, _, _, _, rfl⟩ := finish_cases hstep
      rfl
  | receive =>
      obtain ⟨_, _, rfl⟩ := Option.map_eq_some_iff.mp hstep
      rfl
  | close =>
      obtain rfl := Option.some.inj hstep
      rfl
  | drop =>
      obtain ⟨-, hnext⟩ := Option.ite_none_right_eq_some.mp hstep
      obtain rfl := Option.some.inj hnext
      rfl
  | deliver => exact absurd rfl hdeliver
  | stop => exact absurd rfl hstop

/-- Of all moves but the stop, only the delivery of an event that nobody hears sets the flag. -/
theorem step_cancelled (hstop : move ≠ .stop) :
    ((call.step move).getD call).cancelled =
      (call.cancelled || (move = .deliver && call.losesListener)) := by
  by_cases hdeliver : move = .deliver
  · subst hdeliver
    simpa [step] using call.deliver_cancelled
  · have hkept : ((call.step move).getD call).cancelled = call.cancelled := by
      cases hstep : call.step move with
      | none => rfl
      | some next => exact cancelled_of_step hdeliver hstop hstep
    simp [hkept, hdeliver]

/-- After a schedule without a stop, the flag is set if it was before, or if the worker has lost its
listener. -/
theorem run_cancelled {schedule : List Move} (hstop : .stop ∉ schedule) :
    (call.run schedule).cancelled = (call.cancelled || call.losesListenerIn schedule) := by
  induction schedule generalizing call with
  | nil => simp [run, losesListenerIn]
  | cons move others ih =>
      obtain ⟨hmove, hothers⟩ := List.ne_and_not_mem_of_not_mem_cons hstop
      rw [losesListenerIn, ← Bool.or_assoc, ← step_cancelled hmove.symm]
      exact ih hothers

end LocalCall

/-! ### One request after another -/

/-- A request to a local worker, with where its events go, when its caller walks away, and the moves
of its call in their order. -/
structure Errand where
  request : Request
  reception : Reception
  abandonAfter : Option Nat := none
  schedule : List Move

namespace Errand

variable (engine : Engine) (eventBuffer : Nat) (errand : Errand) (handle : Handle LocalWorker)

/-- The start of the call on a worker that was not stopped. -/
def call : LocalCall :=
  .start { engine } errand.request eventBuffer errand.reception.channel?

/-- Whether the worker loses its listener during the call. -/
def losesListener : Bool :=
  (errand.call engine eventBuffer).losesListenerIn errand.schedule

/-- Issue the request on a handle. -/
def issue : Issued × Handle LocalWorker × List (List Move) :=
  handle.issue (scheduledWorkers engine eventBuffer) errand.request errand.reception
    errand.abandonAfter [errand.schedule]

/-- Whether the engine of a handle's worker is put to the request. -/
def IsServed : Prop :=
  ∃ busy, handle.call (scheduledWorkers engine eventBuffer) errand.request errand.reception
    errand.abandonAfter [errand.schedule] =
      .ok (((errand.call engine eventBuffer).run errand.schedule).seen
        ⟨handle.timeout, errand.abandonAfter⟩, busy, [])

end Errand

/-- The handle after requests were issued on it, one after another. -/
def Handle.serve (engine : Engine) (eventBuffer : Nat) (handle : Handle LocalWorker)
    (errands : List Errand) : Handle LocalWorker :=
  errands.foldl (fun handle errand => (errand.issue engine eventBuffer handle).2.1) handle

/-- A call after which its handle takes requests leaves the worker as it is. -/
theorem Handle.conclude_worker {ν ω : Type} (transport : Transport ν ω) (handle : Handle ν)
    {ending : CallEnd} (haccepts : ending.leaves.accepts = true) (surroundings : ω) :
    (handle.conclude transport ending surroundings).2.1.worker = handle.worker := by
  obtain ⟨response, rfl, hfault⟩ := CallEnd.exists_replied haccepts
  cases response with
  | failed fault => exact absurd rfl (hfault fault)
  | checked | circuit | runComplete => rfl

namespace Errand

variable {engine : Engine} {eventBuffer : Nat} {errand : Errand} {handle : Handle LocalWorker}
  {cancelled : Bool}

theorem call_of_cancelled (haccepts : handle.state.accepts = true)
    (hworker : handle.worker = { engine, cancelled := true }) :
    handle.call (scheduledWorkers engine eventBuffer) errand.request errand.reception
      errand.abandonAfter [errand.schedule] =
        .ok (⟨[], .failed .terminated⟩, { handle with state := .busy }, [errand.schedule]) := by
  refine Handle.call_of_accepts haccepts ?_
  simp [scheduledWorkers, hworker, LocalWorker.isStopped]

theorem call_of_willing (haccepts : handle.state.accepts = true)
    (hworker : handle.worker = { engine }) :
    handle.call (scheduledWorkers engine eventBuffer) errand.request errand.reception
      errand.abandonAfter [errand.schedule] =
        .ok (((errand.call engine eventBuffer).run errand.schedule).seen
          ⟨handle.timeout, errand.abandonAfter⟩,
          { handle with
            worker :=
              { engine
                cancelled := ((errand.call engine eventBuffer).run errand.schedule).cancelled }
            state := .busy },
          []) := by
  refine Handle.call_of_accepts haccepts ?_
  simp [scheduledWorkers, hworker, LocalWorker.isStopped, Errand.call]

/-- A worker whose flag is set refuses the request, and its handle fails. -/
theorem issue_of_cancelled (haccepts : handle.state.accepts = true)
    (hworker : handle.worker = { engine, cancelled := true }) :
    errand.issue engine eventBuffer handle =
      (.refused .terminated, { handle with state := .failed }, [errand.schedule]) := by
  rw [issue, Handle.issue, call_of_cancelled haccepts hworker]
  rfl

/-- The engine is put to the request exactly if the flag is not set. -/
theorem isServed_iff (haccepts : handle.state.accepts = true)
    (hworker : handle.worker = { engine, cancelled }) :
    errand.IsServed engine eventBuffer handle ↔ cancelled = false := by
  cases cancelled with
  | true => simp [IsServed, call_of_cancelled haccepts hworker]
  | false => simp [IsServed, call_of_willing haccepts hworker]

theorem accepts_of_issue
    (hafter : (errand.issue engine eventBuffer handle).2.1.state.accepts = true) :
    handle.state.accepts = true := by
  cases hrefusal : handle.state.refusal? with
  | some error => rwa [issue, Handle.issue_of_refusal hrefusal] at hafter
  | none => exact HandleState.refusal?_eq_none_iff.mp hrefusal

/-- A request that leaves a handle in which another can be issued was served, and the flag of the
worker tells whether it has lost its listener. -/
theorem worker_of_issue (hstop : .stop ∉ errand.schedule)
    (hworker : handle.worker = { engine, cancelled })
    (hafter : (errand.issue engine eventBuffer handle).2.1.state.accepts = true) :
    cancelled = false ∧ (errand.issue engine eventBuffer handle).2.1.worker =
      { engine, cancelled := errand.losesListener engine eventBuffer } := by
  have haccepts := accepts_of_issue hafter
  cases cancelled with
  | true =>
      rw [issue_of_cancelled haccepts hworker] at hafter
      nomatch hafter
  | false =>
      refine ⟨rfl, ?_⟩
      rw [issue, Handle.issue, call_of_willing haccepts hworker] at hafter ⊢
      dsimp only at hafter ⊢
      rw [Handle.conclude_state _ _ _ _ rfl] at hafter
      rw [Handle.conclude_worker _ _ hafter, LocalCall.run_cancelled hstop]
      rfl

end Errand

/-- As long as requests can be issued, the flag of the worker tells whether one of the requests has
lost its listener. -/
theorem Handle.serve_worker {engine : Engine} {eventBuffer timeout : Nat} {holdsSlot : Bool}
    {errands : List Errand} (hstop : ∀ errand ∈ errands, .stop ∉ errand.schedule)
    (haccepts : (Handle.serve engine eventBuffer { worker := { engine }, timeout, holdsSlot }
      errands).state.accepts = true) :
    (Handle.serve engine eventBuffer { worker := { engine }, timeout, holdsSlot } errands).worker =
      { engine, cancelled := errands.any (·.losesListener engine eventBuffer) } := by
  -- from the end: that the last request leaves a handle to issue on says so of all before it
  induction errands using List.reverseRecOn with
  | nil => rfl
  | append_singleton others errand ih =>
      rw [Handle.serve, List.foldl_concat] at haccepts ⊢
      have hothers := ih (fun other hother => hstop other (List.mem_append_left _ hother))
        (Errand.accepts_of_issue haccepts)
      obtain ⟨hkept, hworker⟩ := Errand.worker_of_issue
        (hstop errand (List.mem_append_right _ (List.mem_singleton_self _))) hothers haccepts
      rw [Handle.serve] at hworker
      rw [hworker, List.any_append, hkept, List.any_cons, List.any_nil, Bool.false_or,
        Bool.or_false]

/-- As long as requests can be issued, the engine is put to the next exactly if none before has lost
its listener. -/
theorem Handle.isServed_iff_of_serve {engine : Engine} {eventBuffer timeout : Nat}
    {holdsSlot : Bool} {errands : List Errand}
    (hstop : ∀ errand ∈ errands, .stop ∉ errand.schedule)
    (haccepts : (Handle.serve engine eventBuffer { worker := { engine }, timeout, holdsSlot }
      errands).state.accepts = true) (next : Errand) :
    next.IsServed engine eventBuffer
        (Handle.serve engine eventBuffer { worker := { engine }, timeout, holdsSlot } errands) ↔
      ∀ errand ∈ errands, errand.losesListener engine eventBuffer = false := by
  rw [Errand.isServed_iff haccepts (serve_worker hstop haccepts)]
  simp

/-- A handle whose last request is completed takes another.  Its engine is put to the request
exactly if no request before has lost its listener; after one that has, the worker refuses it as if
it had been terminated, and the handle fails. -/
theorem Handle.completed_serves_iff {engine : Engine} {eventBuffer timeout : Nat}
    {holdsSlot : Bool} {errands : List Errand}
    (hstop : ∀ errand ∈ errands, .stop ∉ errand.schedule) {handle : Handle LocalWorker}
    (hserve : Handle.serve engine eventBuffer { worker := { engine }, timeout, holdsSlot } errands =
      handle) (hcompleted : handle.state = .completed) (next : Errand) :
    (next.IsServed engine eventBuffer handle ↔
      ∀ errand ∈ errands, errand.losesListener engine eventBuffer = false) ∧
    (¬next.IsServed engine eventBuffer handle →
      next.issue engine eventBuffer handle =
        (.refused .terminated, { handle with state := .failed }, [next.schedule])) := by
  subst hserve
  have haccepts := HandleState.accepts_iff.mpr (.inr hcompleted)
  have hworker := serve_worker hstop haccepts
  refine ⟨isServed_iff_of_serve hstop haccepts next, fun hunserved => ?_⟩
  rw [Errand.isServed_iff haccepts hworker, Bool.not_eq_false] at hunserved
  rw [hunserved] at hworker
  exact Errand.issue_of_cancelled haccepts hworker

/-- An engine of one event, which does not look whether it is to stop. -/
def headlong : Engine :=
  ⟨"headlong", fun _ => .tell ⟨"0", 0⟩ fun _ => .done (.ok (.runComplete 1))⟩

/-- A handle on a worker with that engine. -/
def headlongHandle : Handle LocalWorker where
  worker := { engine := headlong }
  timeout := 5

/-- A run whose receiver stays. -/
def heardRun : Errand where
  request := .run [] none 1 .base
  reception := .buffered 1
  schedule := [.work, .forward, .deliver, .join, .finish]

/-- A run whose receiver goes away before the event comes, and then the moves of the worker. -/
def unheardRun (schedule : List Move) : Errand :=
  { heardRun with schedule := .close :: .work :: schedule }

/-- The run is completed in both cases.  If the worker comes to the event before it notices that the
engine has ended, the next run is refused; otherwise it is served. -/
theorem Handle.completed_serves_iff_headlong :
    let late := headlongHandle.serve headlong 1 [unheardRun [.forward, .deliver, .join, .finish]]
    let early := headlongHandle.serve headlong 1 [unheardRun [.join, .forward, .deliver]]
    (late.state = .completed ∧
      (heardRun.issue headlong 1 late).1.outcome = some (.error .terminated)) ∧
    early.state = .completed ∧ heardRun.IsServed headlong 1 early := by
  have hlate : (headlongHandle.serve headlong 1
      [unheardRun [.forward, .deliver, .join, .finish]]).state = .completed := by decide
  have hearly : (headlongHandle.serve headlong 1
      [unheardRun [.join, .forward, .deliver]]).state = .completed := by decide
  obtain ⟨hserved, hrefused⟩ := completed_serves_iff (by decide) rfl hlate heardRun
  refine ⟨⟨hlate, ?_⟩, hearly, ?_⟩
  · have hunserved := mt hserved.mp (by decide)
    exact congrArg (·.1.outcome) (hrefused hunserved)
  · exact (completed_serves_iff (by decide) rfl hearly heardRun).1.mpr (by decide)

end GateBench.Worker
