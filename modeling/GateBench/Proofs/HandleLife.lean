import GateBench.Worker.Handle
import GateBench.Worker.Script
import Mathlib.Data.List.Basic

/-!
The life of a handle, in turns: every request that is issued on it and every release, whatever comes
of them, and in the end its drop.  A turn keeps to one of four rules.  From these follows over a
whole life that the worker is called only while the handle takes requests, that it is stopped
exactly once, and which turn stops it.
-/

namespace GateBench.Worker

open Message

/-! ### What the operations of a handle do -/

/-- Whether a call has run into its deadline. -/
def CallEnd.isDeadline : CallEnd → Bool
  | .deadline => true
  | .replied _ | .failed _ | .abandoned => false

/-- The state in which a call leaves its handle. -/
def CallEnd.leaves : CallEnd → HandleState
  | .replied (.failed _) | .failed _ => .failed
  | .replied _ => .completed
  | .deadline => .terminated
  | .abandoned => .busy

/-- What the holder of a handle with a timeout learns of the end of a call. -/
def CallEnd.outcome (timeout : Nat) : CallEnd → Option (Except WorkerError Response)
  | .replied (.failed fault) => some (.error (.failure fault))
  | .replied response => some (.ok response)
  | .failed error => some (.error error)
  | .deadline => some (.error (.timeout timeout))
  | .abandoned => none

theorem CallEnd.leaves_eq_terminated_iff {ending : CallEnd} :
    ending.leaves = .terminated ↔ ending.isDeadline = true := by
  cases ending with
  | replied response => cases response <;> simp [leaves, isDeadline]
  | failed error | deadline | abandoned => simp [leaves, isDeadline]

/-- At a deadline the handle does not rest before its worker is stopped. -/
theorem CallEnd.leaves_ne_timedOut (ending : CallEnd) : ending.leaves ≠ .timedOut := by
  cases ending with
  | replied response => cases response <;> simp [leaves]
  | failed error | deadline | abandoned => simp [leaves]

/-- A call after which its handle takes requests was replied to without a fault. -/
theorem CallEnd.exists_replied {ending : CallEnd} (haccepts : ending.leaves.accepts = true) :
    ∃ response, ending = .replied response ∧ ∀ fault, response ≠ .failed fault := by
  cases ending with
  | replied response =>
      refine ⟨response, rfl, ?_⟩
      rintro fault rfl
      nomatch haccepts
  | failed error | deadline | abandoned => nomatch haccepts

/-- The holder of a handle learns that a time has run out at its deadline, and where the worker has
failed with it. -/
theorem CallEnd.outcome_eq_timeout_iff {ending : CallEnd} {timeout : Nat} :
    (∃ milliseconds, ending.outcome timeout = some (.error (.timeout milliseconds))) ↔
      ending.isDeadline = true ∨ ∃ milliseconds, ending = .failed (.timeout milliseconds) := by
  cases ending with
  | replied response => cases response <;> simp [outcome, isDeadline]
  | failed error | deadline | abandoned => simp [outcome, isDeadline]

theorem HandleState.accepts_iff {state : HandleState} :
    state.accepts = true ↔ state = .idle ∨ state = .completed := by
  simp [accepts]

theorem HandleState.ne_terminated_of_accepts {state : HandleState}
    (haccepts : state.accepts = true) : state ≠ .terminated := by
  rintro rfl
  nomatch haccepts

theorem HandleState.refusal?_eq_none_iff {state : HandleState} :
    state.refusal? = none ↔ state.accepts = true := by
  cases state <;> simp [refusal?, accepts]

theorem HandleState.accepts_of_refusal {state : HandleState} {error : WorkerError}
    (hrefusal : state.refusal? = some error) : state.accepts = false := by
  rw [← Bool.not_eq_true, ← refusal?_eq_none_iff, hrefusal]
  nofun

/-- No request is refused because a time has run out. -/
theorem HandleState.ne_timeout_of_refusal {state : HandleState} {error : WorkerError}
    (hrefusal : state.refusal? = some error) (milliseconds : Nat) :
    error ≠ .timeout milliseconds := by
  rintro rfl
  cases state <;> nomatch hrefusal

namespace Transport

variable {ν ω : Type} {transport : Transport ν ω} {record : Recorded ω} {later : ω}

theorem recorded_spawn {result : Except WorkerError ν}
    (hspawn : transport.spawn record.surroundings = (result, later)) :
    transport.recorded.spawn record = (result, ⟨later, .spawn :: record.signals⟩) := by
  simp only [recorded, hspawn]

theorem recorded_call {request : Request} {reception : Reception} {patience : Patience}
    {worker after : ν} {call : Call}
    (hcall : transport.call request reception patience worker record.surroundings =
      (call, after, later)) :
    transport.recorded.call request reception patience worker record =
      (call, after, ⟨later, .call :: record.signals⟩) := by
  simp only [recorded, hcall]

end Transport

namespace Handle

variable {ν ω : Type} (transport : Transport ν ω) (handle : Handle ν) (surroundings : ω)
  (record : Recorded ω)

@[simp]
theorem shutdown_state : (handle.shutdown transport surroundings).1.state = .terminated := by
  unfold shutdown
  split_ifs with hterminal
  · simpa [HandleState.isTerminal] using hterminal
  · rfl

@[simp]
theorem shutdown_timedOut :
    (handle.shutdown transport surroundings).1.timedOut = handle.timedOut := by
  unfold shutdown
  split_ifs <;> rfl

@[simp]
theorem shutdown_holdsSlot :
    (handle.shutdown transport surroundings).1.holdsSlot = handle.holdsSlot := by
  unfold shutdown
  split_ifs <;> rfl

/-- The worker is told to terminate, unless it was before. -/
@[simp]
theorem shutdown_signals :
    (handle.shutdown transport.recorded record).2.signals =
      (if handle.state = .terminated then [] else [.terminate]) ++ record.signals := by
  unfold shutdown HandleState.isTerminal
  by_cases hterminal : handle.state = .terminated <;> simp [hterminal, Transport.recorded]

@[simp]
theorem release_state : (handle.release transport surroundings).1.state = .terminated :=
  shutdown_state transport handle surroundings

@[simp]
theorem release_timedOut :
    (handle.release transport surroundings).1.timedOut = handle.timedOut :=
  shutdown_timedOut transport handle surroundings

@[simp]
theorem release_signals :
    (handle.release transport.recorded record).2.signals =
      (if handle.state = .terminated then [] else [.terminate]) ++ record.signals :=
  shutdown_signals transport handle record

/-- The worker is killed, unless it was told to terminate before. -/
@[simp]
theorem drop_signals :
    (handle.drop transport.recorded record).signals =
      (if handle.state = .terminated then [] else [.kill]) ++ record.signals := by
  unfold drop HandleState.isTerminal
  by_cases hterminal : handle.state = .terminated <;> simp [hterminal, Transport.recorded]

section Conclude

variable (ending : CallEnd)

/-- At the deadline the worker is stopped. -/
theorem conclude_deadline :
    handle.conclude transport .deadline surroundings =
      (some (.error (.timeout handle.timeout)),
        { handle with state := .timedOut, timedOut := true }.shutdown transport surroundings) :=
  rfl

@[simp]
theorem conclude_outcome :
    (handle.conclude transport ending surroundings).1 = ending.outcome handle.timeout := by
  cases ending with
  | replied response => cases response <;> rfl
  | failed error | deadline | abandoned => rfl

theorem conclude_state (hbusy : handle.state = .busy) :
    (handle.conclude transport ending surroundings).2.1.state = ending.leaves := by
  cases ending with
  | replied response => cases response <;> rfl
  | failed error => rfl
  | deadline => rw [conclude_deadline, shutdown_state, CallEnd.leaves]
  | abandoned => exact hbusy

@[simp]
theorem conclude_timedOut :
    (handle.conclude transport ending surroundings).2.1.timedOut =
      (handle.timedOut || ending.isDeadline) := by
  cases ending with
  | replied response => cases response <;> exact (Bool.or_false _).symm
  | failed error | abandoned => exact (Bool.or_false _).symm
  | deadline => rw [conclude_deadline, shutdown_timedOut, CallEnd.isDeadline, Bool.or_true]

@[simp]
theorem conclude_holdsSlot :
    (handle.conclude transport ending surroundings).2.1.holdsSlot = handle.holdsSlot := by
  cases ending with
  | replied response => cases response <;> rfl
  | failed error | abandoned => rfl
  | deadline => rw [conclude_deadline, shutdown_holdsSlot]

/-- Of all ends, only the deadline stops the worker. -/
@[simp]
theorem conclude_signals :
    (handle.conclude transport.recorded ending record).2.2.signals =
      (if ending.isDeadline then [.terminate] else []) ++ record.signals := by
  cases ending with
  | replied response => cases response <;> rfl
  | failed error | abandoned => rfl
  | deadline =>
      rw [conclude_deadline, shutdown_signals]
      rfl

end Conclude

section Issue

variable {transport handle surroundings} {request : Request} {reception : Reception}
  {abandonAfter : Option Nat}

/-- A handle that takes requests calls its worker, and is busy. -/
theorem call_of_accepts (haccepts : handle.state.accepts = true) {call : Call} {worker : ν}
    {later : ω} (hcall : transport.call request reception ⟨handle.timeout, abandonAfter⟩
      handle.worker surroundings = (call, worker, later)) :
    handle.call transport request reception abandonAfter surroundings =
      .ok (call, { handle with worker, state := .busy }, later) := by
  unfold Handle.call
  rw [HandleState.refusal?_eq_none_iff.mpr haccepts, hcall]

theorem issue_of_accepts (haccepts : handle.state.accepts = true) {call : Call} {worker : ν}
    {later : ω} (hcall : transport.call request reception ⟨handle.timeout, abandonAfter⟩
      handle.worker surroundings = (call, worker, later)) :
    handle.issue transport request reception abandonAfter surroundings =
      let (outcome, after, last) :=
        { handle with worker, state := .busy }.conclude transport call.ending later
      (⟨call.happenings, outcome⟩, after, last) := by
  rw [issue, call_of_accepts haccepts hcall]

/-- A handle that does not take a request is left as it is. -/
theorem issue_of_refusal {error : WorkerError} (hrefusal : handle.state.refusal? = some error) :
    handle.issue transport request reception abandonAfter surroundings =
      (.refused error, handle, surroundings) := by
  rw [issue, Handle.call, hrefusal]

end Issue

end Handle

/-! ### Turns -/

/-- What the holder of a handle does with it. -/
inductive HandleAction where
  | issue (request : Request) (reception : Reception) (abandonAfter : Option Nat)
  | release

/-- An action on a handle: the handle before it and after it, how the call ended that it led to,
what the holder of the handle learned, and what the worker was told, in order. -/
structure Turn (ν : Type) where
  action : HandleAction
  before : Handle ν
  ending : Option CallEnd
  outcome : Option (Except WorkerError Response)
  signals : List Signal
  after : Handle ν

namespace Handle

variable {ν ω : Type}

/-- How the call ends that a request leads to, if the handle takes it. -/
def ending? (transport : Transport ν ω) (handle : Handle ν) (request : Request)
    (reception : Reception) (abandonAfter : Option Nat) (surroundings : ω) : Option CallEnd :=
  match handle.call transport request reception abandonAfter surroundings with
  | .ok (call, _, _) => some call.ending
  | .error _ => none

/-- Act on a handle. -/
def act (transport : Transport ν ω) (handle : Handle ν) (action : HandleAction)
    (surroundings : ω) : Turn ν × ω :=
  let record : Recorded ω := { surroundings }
  match action with
  | .issue request reception abandonAfter =>
    let (issued, after, later) :=
      handle.issue transport.recorded request reception abandonAfter record
    ({ action, before := handle,
       ending := handle.ending? transport.recorded request reception abandonAfter record,
       outcome := issued.outcome, signals := later.signals.reverse, after }, later.surroundings)
  | .release =>
    let (after, later) := handle.release transport.recorded record
    ({ action, before := handle, ending := none, outcome := none,
       signals := later.signals.reverse, after }, later.surroundings)

end Handle

/-- The rules of turns.  A request that the handle does not take changes nothing; one that it takes
is a call, and at its deadline the worker is stopped; the first release stops the worker; and a
further one does nothing. -/
inductive Turn.Lawful {ν : Type} : Turn ν → Prop where
  | refused {request : Request} {reception : Reception} {abandonAfter : Option Nat}
      {handle : Handle ν} {error : WorkerError} (hrefusal : handle.state.refusal? = some error) :
      Lawful ⟨.issue request reception abandonAfter, handle, none, some (.error error), [], handle⟩
  | called {request : Request} {reception : Reception} {abandonAfter : Option Nat}
      {handle after : Handle ν} {ending : CallEnd} (haccepts : handle.state.accepts = true)
      (hstate : after.state = ending.leaves)
      (htimedOut : after.timedOut = (handle.timedOut || ending.isDeadline)) :
      Lawful ⟨.issue request reception abandonAfter, handle, some ending,
        ending.outcome handle.timeout, .call :: if ending.isDeadline then [.terminate] else [],
        after⟩
  | stopped {handle after : Handle ν} (hlive : handle.state ≠ .terminated)
      (hstate : after.state = .terminated) (htimedOut : after.timedOut = handle.timedOut) :
      Lawful ⟨.release, handle, none, none, [.terminate], after⟩
  | stayed {handle after : Handle ν} (hterminated : handle.state = .terminated)
      (hstate : after.state = .terminated) (htimedOut : after.timedOut = handle.timedOut) :
      Lawful ⟨.release, handle, none, none, [], after⟩

/-- Whatever the worker does, a turn keeps to the rules. -/
theorem Handle.act_lawful {ν ω : Type} (transport : Transport ν ω) (handle : Handle ν)
    (action : HandleAction) (surroundings : ω) :
    (handle.act transport action surroundings).1.Lawful := by
  cases action with
  | issue request reception abandonAfter =>
      cases hrefusal : handle.state.refusal? with
      | some error =>
          have hending : handle.ending? transport.recorded request reception abandonAfter
              { surroundings } = none := by
            rw [ending?, call, hrefusal]
          simp only [act, hending, issue_of_refusal hrefusal]
          exact .refused hrefusal
      | none =>
          have haccepts := HandleState.refusal?_eq_none_iff.mp hrefusal
          rcases hmade : transport.call request reception ⟨handle.timeout, abandonAfter⟩
            handle.worker surroundings with ⟨call, worker, later⟩
          have hcall : transport.recorded.call request reception ⟨handle.timeout, abandonAfter⟩
              handle.worker { surroundings } = (call, worker, ⟨later, [.call]⟩) :=
            Transport.recorded_call hmade
          have hsignals (deadline : Bool) :
              ((if deadline then [Signal.terminate] else []) ++ [Signal.call]).reverse =
                .call :: if deadline then [.terminate] else [] := by
            cases deadline <;> rfl
          simp only [act, ending?, call_of_accepts haccepts hcall, issue_of_accepts haccepts hcall,
            conclude_outcome, conclude_signals, hsignals]
          exact .called haccepts (conclude_state _ { handle with worker, state := .busy } _ _ rfl)
            (conclude_timedOut _ { handle with worker, state := .busy } _ _)
  | release =>
      by_cases hterminated : handle.state = .terminated
      · have hlawful := Turn.Lawful.stayed hterminated
          (release_state transport.recorded handle { surroundings })
          (release_timedOut transport.recorded handle { surroundings })
        simpa [act, hterminated] using hlawful
      · have hlawful := Turn.Lawful.stopped hterminated
          (release_state transport.recorded handle { surroundings })
          (release_timedOut transport.recorded handle { surroundings })
        simpa [act, hterminated] using hlawful

/-- Why a request is refused in the states in which handles rest. -/
inductive Refuses : HandleState → WorkerError → Prop where
  | busy : Refuses .busy .busy
  | failed : Refuses .failed .unusable
  | terminated : Refuses .terminated .terminated

theorem Refuses.of_refusal {state : HandleState} {error : WorkerError}
    (hrefusal : state.refusal? = some error) (hstate : state ≠ .timedOut) :
    Refuses state error := by
  cases state with
  | idle | completed => nomatch hrefusal
  | timedOut => exact absurd rfl hstate
  | busy =>
      obtain rfl := Option.some.inj hrefusal
      exact .busy
  | failed =>
      obtain rfl := Option.some.inj hrefusal
      exact .failed
  | terminated =>
      obtain rfl := Option.some.inj hrefusal
      exact .terminated

namespace Turn

variable {ν : Type}

/-- Whether a turn issues a request. -/
def isIssue (turn : Turn ν) : Bool :=
  match turn.action with
  | .issue .. => true
  | .release => false

/-- Whether a call has run into its deadline in a turn. -/
def isExpiry (turn : Turn ν) : Bool :=
  turn.ending.any (·.isDeadline)

/-- Whether a turn ends a handle that still lives: a release does, and so does a deadline. -/
def isEnd (turn : Turn ν) : Bool :=
  !turn.isIssue || turn.isExpiry

/-- Whether the holder of a handle learns in a turn that a time has run out. -/
def tellsTimeout (turn : Turn ν) : Bool :=
  match turn.outcome with
  | some (.error (.timeout _)) => true
  | _ => false

theorem tellsTimeout_iff_outcome {turn : Turn ν} :
    turn.tellsTimeout = true ↔
      ∃ milliseconds, turn.outcome = some (.error (.timeout milliseconds)) := by
  unfold tellsTimeout
  split <;> simp_all

/-- A turn in which a request is refused, for a reason that the state of the handle gives, and
nothing else happens. -/
def IsRefusal (turn : Turn ν) : Prop :=
  (∃ error, Refuses turn.before.state error ∧ turn.outcome = some (.error error)) ∧
    turn.signals = [] ∧ turn.after = turn.before

namespace Lawful

variable {turn : Turn ν}

theorem accepts_of_call (hlawful : turn.Lawful) (hcall : .call ∈ turn.signals) :
    turn.before.state.accepts = true := by
  cases hlawful with
  | called haccepts => exact haccepts
  | refused | stopped | stayed => simp at hcall

/-- A handle is terminated after a turn if it was before, or if the turn ends it. -/
theorem terminated_iff (hlawful : turn.Lawful) :
    turn.after.state = .terminated ↔ turn.before.state = .terminated ∨ turn.isEnd = true := by
  cases hlawful with
  | refused => simp [isEnd, isIssue, isExpiry]
  | @called _ _ _ handle after ending haccepts hstate =>
      have hlive := HandleState.ne_terminated_of_accepts haccepts
      simp [hstate, hlive, isEnd, isIssue, isExpiry, CallEnd.leaves_eq_terminated_iff]
  | stopped hlive hstate => simp [hstate, isEnd, isIssue]
  | stayed hterminated hstate => simp [hstate, isEnd, isIssue]

/-- Through a handle that is terminated the worker is told nothing. -/
theorem signals_eq_nil (hlawful : turn.Lawful) (hterminated : turn.before.state = .terminated) :
    turn.signals = [] := by
  cases hlawful with
  | refused | stayed => rfl
  | called haccepts => exact absurd hterminated (HandleState.ne_terminated_of_accepts haccepts)
  | stopped hlive => exact absurd hterminated hlive

/-- Through any other handle it is called at most once in a turn, and last told to terminate if the
turn ends the handle. -/
theorem signals_eq (hlawful : turn.Lawful) (hlive : turn.before.state ≠ .terminated) :
    ∃ calls, turn.signals =
      List.replicate calls .call ++ if turn.isEnd = true then [.terminate] else [] := by
  cases hlawful with
  | refused => exact ⟨0, by simp [isEnd, isIssue, isExpiry]⟩
  | called => exact ⟨1, by simp [isEnd, isIssue, isExpiry]⟩
  | stopped => exact ⟨0, by simp [isEnd, isIssue]⟩
  | stayed hterminated => exact absurd hterminated hlive

theorem terminate_mem_iff (hlawful : turn.Lawful) :
    .terminate ∈ turn.signals ↔ turn.isEnd = true ∧ turn.before.state ≠ .terminated := by
  by_cases hterminated : turn.before.state = .terminated
  · simp [hlawful.signals_eq_nil hterminated, hterminated]
  · obtain ⟨calls, hcalls⟩ := hlawful.signals_eq hterminated
    cases hend : turn.isEnd <;> simp [hcalls, hend, hterminated]

theorem timedOut_eq (hlawful : turn.Lawful) :
    turn.after.timedOut = (turn.before.timedOut || turn.isExpiry) := by
  cases hlawful with
  | refused => simp [isExpiry]
  | called _ _ htimedOut => simpa [isExpiry] using htimedOut
  | stopped _ _ htimedOut | stayed _ _ htimedOut => simpa [isExpiry] using htimedOut

/-- A handle does not rest where its time has run out and its worker has not been stopped. -/
theorem state_ne_timedOut (hlawful : turn.Lawful) (hbefore : turn.before.state ≠ .timedOut) :
    turn.after.state ≠ .timedOut := by
  cases hlawful with
  | refused => exact hbefore
  | @called _ _ _ handle after ending haccepts hstate =>
      simpa [hstate] using ending.leaves_ne_timedOut
  | stopped _ hstate | stayed _ hstate => simp [hstate]

theorem isRefusal (hlawful : turn.Lawful) (hbefore : turn.before.state ≠ .timedOut)
    (hissue : turn.isIssue = true) (hrefuses : turn.before.state.accepts = false) :
    turn.IsRefusal := by
  cases hlawful with
  | @refused _ _ _ handle error hrefusal =>
      exact ⟨⟨error, .of_refusal hrefusal hbefore, rfl⟩, rfl, rfl⟩
  | called haccepts => simp [haccepts] at hrefuses
  | stopped | stayed => nomatch hissue

/-- That a time has run out is told at the deadline, and where the worker has failed with it. -/
theorem tellsTimeout_iff (hlawful : turn.Lawful) :
    turn.tellsTimeout = true ↔ turn.isExpiry = true ∨
      ∃ milliseconds, turn.ending = some (.failed (.timeout milliseconds)) := by
  rw [tellsTimeout_iff_outcome]
  cases hlawful with
  | refused hrefusal => simp [isExpiry, HandleState.ne_timeout_of_refusal hrefusal]
  | called => simpa [isExpiry] using CallEnd.outcome_eq_timeout_iff
  | stopped | stayed => simp [isExpiry]

/-- A handle that takes no requests tells of no time that has run out, and takes none later. -/
theorem quiet (hlawful : turn.Lawful) (hrefuses : turn.before.state.accepts = false) :
    turn.tellsTimeout = false ∧ turn.after.state.accepts = false := by
  rw [← Bool.not_eq_true, tellsTimeout_iff_outcome]
  cases hlawful with
  | refused hrefusal => exact ⟨by simp [HandleState.ne_timeout_of_refusal hrefusal], hrefuses⟩
  | called haccepts => simp [haccepts] at hrefuses
  | stopped _ hstate | stayed _ hstate => simp [hstate, HandleState.accepts]

/-- A handle takes no requests any more once it has told that a time has run out. -/
theorem refuses_of_tellsTimeout (hlawful : turn.Lawful) (htells : turn.tellsTimeout = true) :
    turn.after.state.accepts = false := by
  cases hlawful with
  | refused hrefusal => exact HandleState.accepts_of_refusal hrefusal
  | @called _ _ _ handle after ending haccepts hstate =>
      dsimp only
      rw [hstate, ← Bool.not_eq_true]
      intro hleaves
      obtain ⟨response, rfl, hfault⟩ := CallEnd.exists_replied hleaves
      cases response with
      | failed fault => exact absurd rfl (hfault fault)
      | checked | circuit | runComplete => nomatch htells
  | stopped _ hstate | stayed _ hstate => simp [hstate, HandleState.accepts]

end Lawful

end Turn

/-- Lawful turns that lead from a handle to another. -/
inductive Leads {ν : Type} : Handle ν → List (Turn ν) → Handle ν → Prop where
  | nowhere (handle : Handle ν) : Leads handle [] handle
  | turn {turn : Turn ν} {others : List (Turn ν)} {last : Handle ν} (hlawful : turn.Lawful)
      (hothers : Leads turn.after others last) : Leads turn.before (turn :: others) last

namespace Leads

variable {ν : Type} {first last : Handle ν} {turns earlier later : List (Turn ν)} {turn : Turn ν}

theorem lawful (hleads : Leads first turns last) : ∀ turn ∈ turns, turn.Lawful := by
  induction hleads with
  | nowhere => simp
  | turn hlawful _ ih => exact List.forall_mem_cons.mpr ⟨hlawful, ih⟩

/-- The turns before one of them lead to it, and it leads to those behind it. -/
theorem split (hleads : Leads first (earlier ++ turn :: later) last) :
    Leads first earlier turn.before ∧ turn.Lawful ∧ Leads turn.after later last := by
  induction earlier generalizing first with
  | nil =>
      cases hleads with
      | turn hlawful hothers => exact ⟨.nowhere _, hlawful, hothers⟩
  | cons other others ih =>
      cases hleads with
      | turn hlawful hothers =>
          obtain ⟨hearlier, hrest⟩ := ih hothers
          exact ⟨.turn hlawful hearlier, hrest⟩

theorem terminated_iff (hleads : Leads first turns last) :
    last.state = .terminated ↔ first.state = .terminated ∨ turns.any Turn.isEnd = true := by
  induction hleads with
  | nowhere => simp
  | turn hlawful _ ih =>
      rw [ih, hlawful.terminated_iff, List.any_cons, Bool.or_eq_true, or_assoc]

theorem timedOut_eq (hleads : Leads first turns last) :
    last.timedOut = (first.timedOut || turns.any Turn.isExpiry) := by
  induction hleads with
  | nowhere => simp
  | turn hlawful _ ih => rw [ih, hlawful.timedOut_eq, List.any_cons, Bool.or_assoc]

theorem signals_eq_nil (hleads : Leads first turns last) (hterminated : first.state = .terminated) :
    turns.flatMap (·.signals) = [] := by
  induction hleads with
  | nowhere => rfl
  | turn hlawful _ ih =>
      rw [List.flatMap_cons, hlawful.signals_eq_nil hterminated, List.nil_append]
      exact ih (hlawful.terminated_iff.mpr (.inl hterminated))

/-- The worker is called until a turn ends the handle, and is then told to terminate. -/
theorem signals_eq (hleads : Leads first turns last) (hlive : first.state ≠ .terminated) :
    ∃ calls, turns.flatMap (·.signals) =
      List.replicate calls .call ++ if turns.any Turn.isEnd = true then [.terminate] else [] := by
  induction hleads with
  | nowhere => exact ⟨0, rfl⟩
  | @turn turn others last hlawful hothers ih =>
      obtain ⟨calls, hcalls⟩ := hlawful.signals_eq hlive
      rw [List.flatMap_cons, hcalls, List.any_cons]
      cases hend : turn.isEnd with
      | true =>
          have hover := hothers.signals_eq_nil (hlawful.terminated_iff.mpr (.inr hend))
          exact ⟨calls, by simp [hover]⟩
      | false =>
          have hafter : turn.after.state ≠ .terminated := by
            simp [hlawful.terminated_iff, hlive, hend]
          obtain ⟨further, hfurther⟩ := ih hafter
          exact ⟨calls + further, by
            simp [hfurther, ← List.replicate_append_replicate]⟩

theorem terminated_stays (hleads : Leads first turns last)
    (hterminated : first.state = .terminated) :
    ∀ turn ∈ turns, turn.after.state = .terminated := by
  induction hleads with
  | nowhere => simp
  | turn hlawful _ ih =>
      have hafter := hlawful.terminated_iff.mpr (.inl hterminated)
      exact List.forall_mem_cons.mpr ⟨hafter, ih hafter⟩

theorem pairwise_terminated (hleads : Leads first turns last) :
    turns.Pairwise fun earlier later =>
      earlier.after.state = .terminated → later.after.state = .terminated := by
  induction hleads with
  | nowhere => exact .nil
  | turn hlawful hothers ih =>
      refine .cons (fun later hlater hterminated => ?_) ih
      exact hothers.terminated_stays hterminated later hlater

theorem state_ne_timedOut (hleads : Leads first turns last) (hfirst : first.state ≠ .timedOut) :
    ∀ turn ∈ turns, turn.before.state ≠ .timedOut := by
  induction hleads with
  | nowhere => simp
  | turn hlawful _ ih =>
      exact List.forall_mem_cons.mpr ⟨hfirst, ih (hlawful.state_ne_timedOut hfirst)⟩

/-- At most once a turn tells that a time has run out. -/
theorem countP_tellsTimeout_le (hleads : Leads first turns last) :
    turns.countP Turn.tellsTimeout ≤ if first.state.accepts then 1 else 0 := by
  induction hleads with
  | nowhere => simp
  | @turn turn others last hlawful _ ih =>
      rw [List.countP_cons]
      cases haccepts : turn.before.state.accepts with
      | false =>
          obtain ⟨htells, hrefuses⟩ := hlawful.quiet haccepts
          simpa [htells, hrefuses] using ih
      | true =>
          cases htells : turn.tellsTimeout with
          | true => simpa [hlawful.refuses_of_tellsTimeout htells] using ih
          | false =>
              have hone : (if turn.after.state.accepts then 1 else 0) ≤ 1 := by
                split_ifs <;> decide
              simpa using Nat.le_trans ih hone

end Leads

/-! ### Lives -/

/-- The life of a handle: its turns, and what the worker is told when the handle is dropped. -/
structure Life (ν : Type) where
  turns : List (Turn ν)
  farewell : List Signal

/-- All that the worker of a handle is told, in order. -/
def Life.signals {ν : Type} (life : Life ν) : List Signal :=
  life.turns.flatMap (·.signals) ++ life.farewell

/-- Act on a handle, and drop it in the end. -/
def Handle.live {ν ω : Type} (transport : Transport ν ω) (handle : Handle ν) :
    List HandleAction → ω → Life ν
  | [], surroundings => ⟨[], (handle.drop transport.recorded { surroundings }).signals.reverse⟩
  | action :: actions, surroundings =>
    let (turn, surroundings) := handle.act transport action surroundings
    let life := turn.after.live transport actions surroundings
    { life with turns := turn :: life.turns }

/-- The turns of a life lead to a handle whose worker is killed unless it was stopped. -/
theorem Handle.live_leads {ν ω : Type} (transport : Transport ν ω) (handle : Handle ν)
    (actions : List HandleAction) (surroundings : ω) :
    ∃ last, Leads handle (handle.live transport actions surroundings).turns last ∧
      (handle.live transport actions surroundings).farewell =
        if last.state = .terminated then [] else [.kill] := by
  induction actions generalizing handle surroundings with
  | nil =>
      refine ⟨handle, .nowhere handle, ?_⟩
      simp only [live, drop_signals, List.append_nil]
      split_ifs <;> rfl
  | cons action actions ih =>
      obtain ⟨last, hleads, hfarewell⟩ := ih (handle.act transport action surroundings).1.after
        (handle.act transport action surroundings).2
      have hbefore : (handle.act transport action surroundings).1.before = handle := by
        cases action <;> rfl
      have hturn := Leads.turn (handle.act_lawful transport action surroundings) hleads
      rw [hbefore] at hturn
      exact ⟨last, hturn, hfarewell⟩

/-- What is safe about the life of a handle. -/
structure Life.IsSafe {ν : Type} (life : Life ν) : Prop where
  /-- The worker is called only while the handle is idle or completed. -/
  called : ∀ turn ∈ life.turns, .call ∈ turn.signals →
    turn.before.state = .idle ∨ turn.before.state = .completed
  /-- In any other state a request is refused. -/
  refused : ∀ turn ∈ life.turns, turn.isIssue = true → turn.before.state ≠ .idle →
    turn.before.state ≠ .completed → turn.IsRefusal
  /-- A handle that is terminated stays so. -/
  terminated : life.turns.Pairwise fun earlier later =>
    earlier.after.state = .terminated → later.after.state = .terminated
  /-- The worker is stopped once, and never called afterwards. -/
  stopped : ∃ calls, life.signals = List.replicate calls .call ++
    [if life.turns.any Turn.isEnd then .terminate else .kill]
  /-- The first release or deadline stops the worker. -/
  stopping : ∀ earlier turn later, life.turns = earlier ++ turn :: later →
    (.terminate ∈ turn.signals ↔ turn.isEnd = true ∧ earlier.any Turn.isEnd = false)
  /-- Without a release and a deadline, the drop does. -/
  dropped : life.farewell = if life.turns.any Turn.isEnd then [] else [.kill]
  /-- At most one request learns that a time has run out. -/
  timeouts : life.turns.countP Turn.tellsTimeout ≤ 1
  /-- It learns so at the deadline, or where the worker has failed with it. -/
  timeout : ∀ turn ∈ life.turns, turn.tellsTimeout = true ↔ turn.isExpiry = true ∨
    ∃ milliseconds, turn.ending = some (.failed (.timeout milliseconds))
  /-- The handle counts as timed out from its deadline on. -/
  timedOut : ∀ earlier turn later, life.turns = earlier ++ turn :: later →
    (turn.after.timedOut = true ↔ ∃ other ∈ earlier ++ [turn], other.isExpiry = true)

/-- Whatever is done with a handle, and whatever its worker does, its life is safe. -/
theorem Handle.live_isSafe {ν ω : Type} (transport : Transport ν ω) (worker : ν) (timeout : Nat)
    (holdsSlot : Bool) (actions : List HandleAction) (surroundings : ω) :
    (Handle.live transport { worker, timeout, holdsSlot } actions surroundings).IsSafe := by
  obtain ⟨last, hleads, hfarewell⟩ :=
    live_leads transport { worker, timeout, holdsSlot } actions surroundings
  have hlive : ({ worker, timeout, holdsSlot } : Handle ν).state ≠ .terminated := by simp
  have hover := hleads.terminated_iff
  simp only [hlive, false_or] at hover
  generalize live transport { worker, timeout, holdsSlot } actions surroundings = life at *
  have hdropped : life.farewell = if life.turns.any Turn.isEnd then [] else [.kill] := by
    simp only [hfarewell, hover]
  exact {
    called := fun turn hturn hcall =>
      HandleState.accepts_iff.mp ((hleads.lawful turn hturn).accepts_of_call hcall)
    refused := fun turn hturn hissue hidle hcompleted => by
      refine (hleads.lawful turn hturn).isRefusal ?_ hissue ?_
      · exact hleads.state_ne_timedOut (by simp) turn hturn
      · simp [HandleState.accepts, hidle, hcompleted]
    terminated := hleads.pairwise_terminated
    stopped := by
      obtain ⟨calls, hcalls⟩ := hleads.signals_eq hlive
      refine ⟨calls, ?_⟩
      rw [Life.signals, hcalls, hdropped]
      split_ifs <;> simp
    stopping := fun earlier turn later hturns => by
      rw [hturns] at hleads
      obtain ⟨hearlier, hlawful, -⟩ := hleads.split
      have hbefore := hearlier.terminated_iff
      simp only [hlive, false_or] at hbefore
      rw [hlawful.terminate_mem_iff, Ne, hbefore, Bool.not_eq_true]
    dropped := hdropped
    timeouts := hleads.countP_tellsTimeout_le
    timeout := fun turn hturn => (hleads.lawful turn hturn).tellsTimeout_iff
    timedOut := fun earlier turn later hturns => by
      rw [hturns] at hleads
      obtain ⟨hearlier, hlawful, -⟩ := hleads.split
      rw [hlawful.timedOut_eq, hearlier.timedOut_eq]
      simp [or_and_right, exists_or] }

/-- A worker that fails its call because a time of its own has run out. -/
def impatient : Stage where
  scripts := [[.fail (.timeout 7)]]

/-- A handle is not timed out just because its holder learns that a time has run out. -/
theorem Handle.timedOut_ne_tellsTimeout :
    ¬∀ earlier turn later,
      (live scripted { worker := (), timeout := 50 } [.issue (.check [] .base) .discarded none]
        impatient).turns = earlier ++ turn :: later →
      (turn.after.timedOut = true ↔
        ∃ other ∈ earlier ++ [turn], other.tellsTimeout = true) := by
  intro hclaim
  have hturns : (live scripted { worker := (), timeout := 50 }
      [.issue (.check [] .base) .discarded none] impatient).turns =
        [⟨.issue (.check [] .base) .discarded none, { worker := (), timeout := 50 },
          some (.failed (.timeout 7)), some (.error (.timeout 7)), [.call],
          { worker := (), timeout := 50, state := .failed }⟩] := by
    simp [live, act, ending?, issue, call, conclude, HandleState.refusal?, Transport.recorded,
      scripted, impatient, play]
  have htimedOut := hclaim [] _ [] hturns
  simp [Turn.tellsTimeout] at htimedOut

end GateBench.Worker
