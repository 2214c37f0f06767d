import GateBench.Proofs.Runs
import GateBench.Worker.ServeSchedule

/-!
Calls of local workers that nobody disturbs: the receiver stays, the caller waits, and nobody stops
the worker.  The engine is then always told to go on and always heard, so its dialogue has one
course; the invariant says where each event of that course is, and the weight how far it has still
to go.
-/

namespace GateBench

open Message

namespace Dialogue

variable {ρ : Type}

/-- The events of a dialogue that is always told to go on and always heard. -/
def fullEvents : Dialogue ρ → List RunEvent
  | done _ => []
  | ask next => (next true).fullEvents
  | tell event next => event :: (next true).fullEvents

/-- The result of a dialogue that is always told to go on and always heard. -/
def fullResult : Dialogue ρ → ρ
  | done result => result
  | ask next => (next true).fullResult
  | tell _ next => (next true).fullResult

@[simp]
theorem fullEvents_map {τ : Type} (f : ρ → τ) (dialogue : Dialogue ρ) :
    (dialogue.map f).fullEvents = dialogue.fullEvents := by
  induction dialogue with
  | done result => rfl
  | ask next ih => exact ih true
  | tell event next ih => exact congrArg (event :: ·) (ih true)

@[simp]
theorem fullResult_map {τ : Type} (f : ρ → τ) (dialogue : Dialogue ρ) :
    (dialogue.map f).fullResult = f dialogue.fullResult := by
  induction dialogue with
  | done result => rfl
  | ask next ih => exact ih true
  | tell event next ih => exact ih true

theorem converseFrom_forwarding (dialogue : Dialogue ρ) (told : List RunEvent) :
    dialogue.converseFrom (Worker.LocalWorker.forwarding true) told false =
      ⟨dialogue.fullResult, told.reverse ++ dialogue.fullEvents, false⟩ := by
  induction dialogue generalizing told with
  | done result => simp [converseFrom, fullResult, fullEvents]
  | ask next ih => exact ih true told
  | tell event next ih =>
      exact (ih true (event :: told)).trans (by simp [fullEvents, fullResult])

end Dialogue

namespace Worker

theorem LocalWorker.willing_of_not_stopped {worker : LocalWorker}
    (hwilling : worker.isStopped = false) : worker.cancelled = false :=
  (Bool.or_eq_false_iff.mp hwilling).2

/-- A worker that was not stopped answers as its engine does when all of it is wanted. -/
theorem LocalWorker.call_eq {worker : LocalWorker} (hwilling : worker.isStopped = false)
    (request : Request) :
    worker.call request true =
      ⟨(worker.engine.serve request).fullEvents,
        answer request.kind (worker.engine.serve request).fullResult, worker⟩ := by
  obtain ⟨engine, cancelled, terminated⟩ := worker
  obtain ⟨rfl, rfl⟩ : terminated = false ∧ cancelled = false := by
    simpa [isStopped] using hwilling
  simp [call, isStopped, converse, Dialogue.converse, Dialogue.converseFrom_forwarding]

namespace Channel

variable {channel : Channel}

theorem waiting_send (htaken : channel.taken ≤ channel.sent.length) (event : RunEvent) :
    (channel.send event).waiting = channel.waiting ++ [event] := by
  simp [waiting, send, List.drop_append_of_le_length htaken]

theorem waiting_take (channel : Channel) : channel.take.waiting = channel.waiting.tail := by
  simp [waiting, take]

theorem sent_split (channel : Channel) :
    channel.sent.take channel.taken ++ channel.waiting = channel.sent :=
  List.take_append_drop _ _

theorem taken_lt {event : RunEvent} {others : List RunEvent}
    (hwaiting : channel.waiting = event :: others) : channel.taken < channel.sent.length := by
  by_contra hbeyond
  simp [waiting, List.drop_eq_nil_of_le (Nat.le_of_not_lt hbeyond)] at hwaiting

theorem sent_take_succ {event : RunEvent} {others : List RunEvent}
    (hwaiting : channel.waiting = event :: others) :
    channel.sent.take (channel.taken + 1) = channel.sent.take channel.taken ++ [event] := by
  have htaken := taken_lt hwaiting
  rw [waiting, List.drop_eq_getElem_cons htaken, List.cons.injEq] at hwaiting
  rw [List.take_add_one, List.getElem?_eq_getElem htaken, hwaiting.1, Option.toList_some]

/-- What waits in a channel is the next of all that is ever sent into it. -/
theorem drop_taken_eq_cons {event : RunEvent} {others events : List RunEvent}
    (hwaiting : channel.waiting = event :: others) (hsent : channel.sent <+: events) :
    events.drop channel.taken = event :: events.drop (channel.taken + 1) := by
  obtain ⟨rest, rfl⟩ := hsent
  have hdrop : (channel.sent ++ rest).drop channel.taken = event :: (others ++ rest) := by
    rw [List.drop_append_of_le_length (taken_lt hwaiting).le]
    exact congrArg (· ++ rest) hwaiting
  rw [← List.tail_drop, hdrop, List.tail_cons]

theorem hasRoom_of_waiting_eq_nil (hcapacity : 0 < channel.capacity)
    (hwaiting : channel.waiting = []) : channel.hasRoom = true := by
  simpa [hasRoom, hwaiting] using hcapacity

/-- A channel whose receiver stays, and which can hold something. -/
structure IsSteady (channel : Channel) : Prop where
  isOpen : channel.isOpen = true
  capacity : 0 < channel.capacity
  taken_le : channel.taken ≤ channel.sent.length

theorem receive_cases {sink : Option Channel} {later : Channel}
    (hreceive : sink.bind Channel.receive = some later) :
    ∃ before event others, sink = some before ∧ before.isOpen = true ∧
      before.waiting = event :: others ∧ later = before.take := by
  obtain ⟨before, rfl, htaken⟩ := Option.bind_eq_some_iff.mp hreceive
  obtain ⟨hmay, hlater⟩ := Option.ite_none_right_eq_some.mp htaken
  obtain ⟨hopen, hwaiting⟩ : before.isOpen = true ∧ before.waiting ≠ [] := by simpa using hmay
  obtain ⟨event, others, hwaiting⟩ := List.exists_cons_of_ne_nil hwaiting
  exact ⟨before, event, others, rfl, hopen, hwaiting, (Option.some.inj hlater).symm⟩

theorem receive_of_waiting {event : RunEvent} {others : List RunEvent}
    (hopen : channel.isOpen = true) (hwaiting : channel.waiting = event :: others) :
    channel.receive = some channel.take := by
  simp [receive, hopen, hwaiting]

@[simp]
theorem reached_none : reached none = [] := rfl

@[simp]
theorem reached_some (channel : Channel) : reached (some channel) = channel.sent := rfl

/-- What has reached a sink stays there when the receiver goes away. -/
@[simp]
theorem reached_close (sink : Option Channel) : reached (sink.map close) = reached sink := by
  cases sink <;> rfl

theorem reached_of_receive {sink : Option Channel} {later : Channel}
    (hreceive : sink.bind Channel.receive = some later) :
    reached (some later) = reached sink := by
  obtain ⟨before, event, others, rfl, -, -, rfl⟩ := receive_cases hreceive
  rfl

theorem IsSteady.send (hsteady : channel.IsSteady) (event : RunEvent) :
    (channel.send event).IsSteady :=
  ⟨hsteady.isOpen, hsteady.capacity, by
    simpa [Channel.send] using Nat.le_succ_of_le hsteady.taken_le⟩

theorem IsSteady.take (hsteady : channel.IsSteady) {event : RunEvent} {others : List RunEvent}
    (hwaiting : channel.waiting = event :: others) : channel.take.IsSteady :=
  ⟨hsteady.isOpen, hsteady.capacity, taken_lt hwaiting⟩

end Channel

/-- What a sink has been sent at the end of a call that sends it events. -/
def heardBy (sink : Option Channel) (events : List RunEvent) : List RunEvent :=
  (sink.map fun channel => channel.sent ++ events).getD []

/-- The moves of the engine and of the worker that serves it. -/
def Move.isInner : Move → Bool
  | .work | .forward | .deliver | .join | .finish => true
  | .receive | .close | .drop | .stop => false

theorem Move.isSteady_of_isInner {move : Move} (hinner : move.isInner = true) :
    move.isSteady = true := by
  cases move <;> first | rfl | nomatch hinner

namespace LocalCall

variable {call next : LocalCall}

/-! ### What a move can do -/

theorem work_cases (hwork : call.work = some next) :
    (∃ further, call.engine = .ask further ∧
        next = { call with engine := further (!call.cancelled) }) ∨
      (∃ event further, call.engine = .tell event further ∧ call.buffer.isOpen = false ∧
        next = call.hear event false further) ∨
      ∃ event further, call.engine = .tell event further ∧ call.buffer.isOpen = true ∧
        call.buffer.hasRoom = true ∧
        next = { call.hear event true further with buffer := call.buffer.send event } := by
  unfold work at hwork
  split at hwork
  · nomatch hwork
  · rename_i further hengine
    exact .inl ⟨further, hengine, (Option.some.inj hwork).symm⟩
  · rename_i event further hengine
    split_ifs at hwork with hclosed hroom
    · exact .inr (.inl ⟨event, further, hengine, by simpa using hclosed,
        (Option.some.inj hwork).symm⟩)
    · exact .inr (.inr ⟨event, further, hengine, by simpa using hclosed, hroom,
        (Option.some.inj hwork).symm⟩)

theorem forward_cases (hforward : call.forward = some next) :
    ∃ event others, call.held = none ∧ call.buffer.waiting = event :: others ∧
      call.isUnderWay = true ∧
      next = { call with held := some event, buffer := call.buffer.take } := by
  unfold forward at hforward
  split at hforward
  · rename_i event others hheld hwaiting
    split_ifs at hforward with hunderWay
    exact ⟨event, others, hheld, hwaiting, hunderWay, (Option.some.inj hforward).symm⟩
  · nomatch hforward

theorem deliver_cases (hdeliver : call.deliver = some next) :
    ∃ event, call.held = some event ∧
      (call.sink = none ∧ next = { call with held := none } ∨
        ∃ sink, call.sink = some sink ∧
          (sink.isOpen = false ∧ next = call.giveUp ∨
            sink.isOpen = true ∧ sink.hasRoom = true ∧
              next = { call with held := none, sink := some (sink.send event) })) := by
  unfold deliver at hdeliver
  split at hdeliver
  · nomatch hdeliver
  · rename_i event hheld hsink
    exact ⟨event, hheld, .inl ⟨hsink, (Option.some.inj hdeliver).symm⟩⟩
  · rename_i event sink hheld hsink
    refine ⟨event, hheld, .inr ⟨sink, hsink, ?_⟩⟩
    split_ifs at hdeliver with hclosed hroom
    · exact .inl ⟨by simpa using hclosed, (Option.some.inj hdeliver).symm⟩
    · exact .inr ⟨by simpa using hclosed, hroom, (Option.some.inj hdeliver).symm⟩

theorem join_cases (hjoin : call.join = some next) :
    call.phase = .forwarding ∧ call.held = none ∧
      ((∃ response, call.engine = .done (.ok response) ∧
          next = { call with phase := .draining response }) ∨
        ∃ reason, call.engine = .done (.error reason) ∧
          next = call.enter (.returned (.error (.crashed reason)))) := by
  unfold join at hjoin
  split at hjoin
  · rename_i response hphase hheld hengine
    exact ⟨hphase, hheld, .inl ⟨response, hengine, (Option.some.inj hjoin).symm⟩⟩
  · rename_i reason hphase hheld hengine
    exact ⟨hphase, hheld, .inr ⟨reason, hengine, (Option.some.inj hjoin).symm⟩⟩
  · nomatch hjoin

theorem finish_cases (hfinish : call.finish = some next) :
    ∃ response, call.phase = .draining response ∧ call.held = none ∧
      call.buffer.waiting = [] ∧
      next = call.enter (.returned (acceptReply call.kind response)) := by
  unfold finish at hfinish
  split at hfinish
  · rename_i response hphase hheld hwaiting
    exact ⟨response, hphase, hheld, hwaiting, (Option.some.inj hfinish).symm⟩
  · nomatch hfinish

/-- Only the receiver takes events out of the sink. -/
theorem taken_of_inner {move : Move} (hinner : move.isInner = true)
    (hstep : call.step move = some next) :
    next.sink.map (·.taken) = call.sink.map (·.taken) := by
  cases move with
  | work =>
      rcases work_cases hstep with ⟨_, _, rfl⟩ | ⟨_, _, _, _, rfl⟩ | ⟨_, _, _, _, _, rfl⟩ <;> rfl
  | forward =>
      obtain ⟨_, _, _, _, _, rfl⟩ := forward_cases hstep
      rfl
  | deliver =>
      obtain ⟨_, _, ⟨_, rfl⟩ | ⟨sink, hsink, ⟨_, rfl⟩ | ⟨_, _, rfl⟩⟩⟩ := deliver_cases hstep
      · rfl
      · unfold giveUp
        split <;> rfl
      · simp [hsink, Channel.send]
  | join =>
      obtain ⟨_, _, ⟨_, _, rfl⟩ | ⟨_, _, rfl⟩⟩ := join_cases hstep <;> rfl
  | finish =>
      obtain ⟨_, _, _, _, rfl⟩ := finish_cases hstep
      rfl
  | receive | close | drop | stop => nomatch hinner

/-! ### How far a call has still to go -/

/-- The weight of events at a place, where each of them has still `extra` moves before it. -/
def load (price : RunEvent → Nat) (extra : Nat) : List RunEvent → Nat
  | [] => 0
  | event :: others => price event + extra + load price extra others

@[simp]
theorem load_append (price : RunEvent → Nat) (extra : Nat) (events others : List RunEvent) :
    load price extra (events ++ others) = load price extra events + load price extra others := by
  induction events with
  | nil => simp [load]
  | cons event rest ih =>
      rw [List.cons_append, load, load, ih, ← Nat.add_assoc]

/-- The weight of what an engine has still to do. -/
def engineWeight (price : RunEvent → Nat) : Dialogue Ending → Nat
  | .done _ => 0
  | .ask next => engineWeight price (next true) + 1
  | .tell event next => engineWeight price (next true) + (price event + 3)

/-- The weight of the moves that end a call. -/
def phaseWeight : CallPhase → Nat
  | .forwarding => 2
  | .draining _ => 1
  | .returned _ | .dropped => 0

/-- The weight of a call; `price` is what becomes of an event once it is taken out of the sink. -/
def weight (price : RunEvent → Nat) (call : LocalCall) : Nat :=
  engineWeight price call.engine + load price 2 call.buffer.waiting +
    load price 1 call.held.toList + load price 0 ((call.sink.map Channel.waiting).getD []) +
    phaseWeight call.phase

/-! ### The course of a call that nobody disturbs -/

/-- What its phase says of a call whose engine comes to an ending. -/
def PhaseFits (ending : Ending) (call : LocalCall) : Prop :=
  match call.phase with
  | .forwarding => True
  | .draining last => call.engine = .done ending ∧ ending = .ok last
  | .returned reply =>
    call.engine = .done ending ∧ call.held = none ∧ call.buffer.waiting = [] ∧
      reply = LocalWorker.answer call.kind ending
  | .dropped => False

/-- A call that nobody disturbs, which found its sink as `source`, and whose engine tells `events`
and comes to an ending: each event is still with the engine, or has been heard and was sent through
the buffer and the worker's hands into the sink in the order in which it was told.  An engine that
breaks down must have told nothing, since its last events are left behind. -/
structure Undisturbed (kind : RequestKind) (source : Option Channel) (events : List RunEvent)
    (ending : Ending) (call : LocalCall) : Prop where
  kind_eq : call.kind = kind
  willing : call.cancelled = false
  capacity : 0 < call.buffer.capacity
  taken_le : call.buffer.taken ≤ call.buffer.sent.length
  isOpen : call.isUnderWay = true → call.buffer.isOpen = true
  heard : call.told = call.buffer.sent.map (·, true)
  story : call.buffer.sent ++ call.engine.fullEvents = events
  result : call.engine.fullResult = ending
  silent : ∀ reason, ending = .error reason → events = []
  sink : Option.Rel (fun before now => now.IsSteady ∧
    now.sent ++ call.held.toList = before.sent ++ call.buffer.sent.take call.buffer.taken)
    source call.sink
  phase : call.PhaseFits ending

theorem undisturbed_start {worker : LocalWorker} (hwilling : worker.cancelled = false)
    {request : Request} {ending : Ending}
    (hresult : (worker.engine.serve request).fullResult = ending)
    (hsilent : ∀ reason, ending = .error reason → (worker.engine.serve request).fullEvents = [])
    (eventBuffer : Nat) {source : Option Channel} (hsource : ∀ channel ∈ source, channel.IsSteady) :
    Undisturbed request.kind source (worker.engine.serve request).fullEvents ending
      (start worker request eventBuffer source) where
  kind_eq := rfl
  willing := hwilling
  capacity := Nat.le_max_right _ _
  taken_le := Nat.le_refl _
  isOpen _ := rfl
  heard := rfl
  story := rfl
  result := hresult
  silent := hsilent
  sink := by
    cases source with
    | none => exact .none
    | some channel => exact .some ⟨hsource channel rfl, by simp [start]⟩
  phase := trivial

namespace Undisturbed

variable {kind : RequestKind} {source : Option Channel} {events : List RunEvent}
  {ending : Ending} (price : RunEvent → Nat)

/-- An engine that has not ended is still waited for. -/
theorem phase_eq_forwarding (hcall : call.Undisturbed kind source events ending)
    (hgoing : ∀ result, call.engine ≠ .done result) : call.phase = .forwarding := by
  have hphase := hcall.phase
  unfold PhaseFits at hphase
  split at hphase
  · assumption
  · exact absurd hphase.1 (hgoing _)
  · exact absurd hphase.1 (hgoing _)
  · exact hphase.elim

theorem work (hcall : call.Undisturbed kind source events ending)
    (hwork : call.work = some next) :
    next.Undisturbed kind source events ending ∧ next.weight price < call.weight price := by
  have hwilling := hcall.willing
  have hstory := hcall.story
  have hresult := hcall.result
  rcases work_cases hwork with ⟨further, hengine, rfl⟩ | ⟨event, further, hengine, hclosed, rfl⟩ |
    ⟨event, further, hengine, hopen, hroom, rfl⟩
  all_goals
    rw [hengine] at hstory hresult
    have hphase := hcall.phase_eq_forwarding (by simp [hengine])
  · refine ⟨{ hcall with story := ?_, result := ?_, phase := ?_ }, ?_⟩
    · simpa [hwilling, Dialogue.fullEvents] using hstory
    · simpa [hwilling, Dialogue.fullResult] using hresult
    · simp [PhaseFits, hphase]
    · simp [weight, hengine, engineWeight, hwilling]
  · rw [hcall.isOpen (by simp [isUnderWay, hphase])] at hclosed
    nomatch hclosed
  · have hsent : (call.buffer.send event).sent = call.buffer.sent ++ [event] := rfl
    refine ⟨{ hcall with
      taken_le := ?_, heard := ?_, story := ?_, result := hresult, sink := ?_, phase := ?_ }, ?_⟩
    · simpa [hsent, Channel.send] using Nat.le_succ_of_le hcall.taken_le
    · simp [hear, hsent, hcall.heard]
    · simpa [hear, hsent, Dialogue.fullEvents] using hstory
    · simpa [hear, Channel.send, List.take_append_of_le_length hcall.taken_le] using hcall.sink
    · simp [PhaseFits, hear, hphase]
    · simp only [weight, hengine, engineWeight, hear, Channel.waiting_send hcall.taken_le,
        load_append, load]
      omega

theorem phaseFits_of_underWay (hcall : call.Undisturbed kind source events ending)
    (hunderWay : call.isUnderWay = true) (hphase : next.phase = call.phase)
    (hengine : next.engine = call.engine) : next.PhaseFits ending := by
  have hfits := hcall.phase
  unfold PhaseFits at hfits ⊢
  rw [hphase, hengine]
  unfold isUnderWay at hunderWay
  split at hunderWay <;> simp_all

theorem underWay_of_held (hcall : call.Undisturbed kind source events ending)
    {event : RunEvent} (hheld : call.held = some event) : call.isUnderWay = true := by
  have hfits := hcall.phase
  unfold PhaseFits at hfits
  unfold isUnderWay
  split at hfits <;> simp_all

theorem forward (hcall : call.Undisturbed kind source events ending)
    (hforward : call.forward = some next) :
    next.Undisturbed kind source events ending ∧ next.weight price < call.weight price := by
  obtain ⟨event, others, hheld, hwaiting, hunderWay, rfl⟩ := forward_cases hforward
  refine ⟨{ hcall with
    taken_le := Channel.taken_lt hwaiting, sink := ?_
    phase := hcall.phaseFits_of_underWay hunderWay rfl rfl }, ?_⟩
  · have hsink := hcall.sink
    simp only [hheld, Option.toList_none, List.append_nil] at hsink
    change Option.Rel (fun before now : Channel => now.IsSteady ∧
      now.sent ++ [event] = before.sent ++ call.buffer.sent.take (call.buffer.taken + 1)) _ _
    rw [Channel.sent_take_succ hwaiting]
    generalize call.sink = sink at hsink ⊢
    cases hsink with
    | none => exact .none
    | some hrel => exact .some ⟨hrel.1, by rw [hrel.2, List.append_assoc]⟩
  · simp only [weight, Channel.waiting_take, hwaiting, hheld, List.tail_cons, Option.toList_none,
      Option.toList_some, load]
    omega

theorem deliver (hcall : call.Undisturbed kind source events ending)
    (hdeliver : call.deliver = some next) :
    next.Undisturbed kind source events ending ∧ next.weight price < call.weight price := by
  obtain ⟨event, hheld, hends⟩ := deliver_cases hdeliver
  have hunderWay := hcall.underWay_of_held hheld
  have hsink := hcall.sink
  rw [hheld] at hsink
  rcases hends with ⟨hnone, rfl⟩ | ⟨sink, hsome, hends⟩
  · rw [hnone] at hsink
    cases hsink
    refine ⟨{ hcall with
      sink := ?_, phase := hcall.phaseFits_of_underWay hunderWay rfl rfl }, ?_⟩
    · rw [hnone]
      exact .none
    · simp only [weight, hheld, Option.toList_none, Option.toList_some, load]
      omega
  · rw [hsome] at hsink
    cases hsink with
    | some hsink =>
        obtain ⟨hsteady, hsent⟩ := hsink
        rcases hends with ⟨hclosed, -⟩ | ⟨-, -, rfl⟩
        · rw [hsteady.isOpen] at hclosed
          nomatch hclosed
        · refine ⟨{ hcall with
            sink := .some ⟨hsteady.send event, ?_⟩
            phase := hcall.phaseFits_of_underWay hunderWay rfl rfl }, ?_⟩
          · simpa [Channel.send] using hsent
          · simp only [weight, hheld, hsome, Option.toList_none, Option.toList_some,
              Option.map_some, Option.getD_some, Channel.waiting_send hsteady.taken_le,
              load_append, load]
            omega

theorem join (hcall : call.Undisturbed kind source events ending)
    (hjoin : call.join = some next) :
    next.Undisturbed kind source events ending ∧ next.weight price < call.weight price := by
  obtain ⟨hphase, hheld, ⟨last, hengine, rfl⟩ | ⟨reason, hengine, rfl⟩⟩ := join_cases hjoin
  all_goals
    have hresult := hcall.result
    rw [hengine] at hresult
    subst hresult
  · refine ⟨{ hcall with
      isOpen := fun _ => hcall.isOpen (by simp [isUnderWay, hphase])
      phase := ⟨hengine, rfl⟩ }, ?_⟩
    simp [weight, hphase, phaseWeight]
  · have hsent : call.buffer.sent = [] := by
      have hstory := hcall.story
      rw [hcall.silent reason rfl] at hstory
      exact (List.append_eq_nil_iff.mp hstory).1
    have hwaiting : call.buffer.waiting = [] := by simp [Channel.waiting, hsent]
    refine ⟨{ hcall with
      isOpen := nofun, sink := ?_, phase := ⟨hengine, rfl, hwaiting, rfl⟩ }, ?_⟩
    · simpa [enter, Channel.close, hheld] using hcall.sink
    · have hclosed : call.buffer.close.waiting = call.buffer.waiting := rfl
      simp [weight, enter, hheld, hphase, hclosed, phaseWeight]

theorem finish (hcall : call.Undisturbed kind source events ending)
    (hfinish : call.finish = some next) :
    next.Undisturbed kind source events ending ∧ next.weight price < call.weight price := by
  obtain ⟨last, hphase, hheld, hwaiting, rfl⟩ := finish_cases hfinish
  have hfits := hcall.phase
  simp only [PhaseFits, hphase] at hfits
  obtain ⟨hengine, rfl⟩ := hfits
  refine ⟨{ hcall with isOpen := nofun, sink := ?_, phase := ⟨hengine, rfl, hwaiting, rfl⟩ }, ?_⟩
  · simpa [enter, Channel.close, hheld] using hcall.sink
  · have hclosed : call.buffer.close.waiting = call.buffer.waiting := rfl
    simp [weight, enter, hheld, hphase, hclosed, phaseWeight]

theorem sink_isSteady (hcall : call.Undisturbed kind source events ending) {sink : Channel}
    (hsink : call.sink = some sink) : sink.IsSteady := by
  have hrel := hcall.sink
  rw [hsink] at hrel
  cases hrel with
  | some hrel => exact hrel.1

theorem receive_eq (hcall : call.Undisturbed kind source events ending) {sink : Channel}
    {event : RunEvent} {others : List RunEvent} (hsink : call.sink = some sink)
    (hwaiting : sink.waiting = event :: others) :
    call.receive = some { call with sink := some sink.take } := by
  simp [LocalCall.receive, hsink,
    Channel.receive_of_waiting (hcall.sink_isSteady hsink).isOpen hwaiting]

/-- The sink is sent the events in the order in which the engine tells them. -/
theorem sent_isPrefix {before : Channel}
    (hcall : call.Undisturbed kind (some before) events ending)
    {sink : Channel} (hsink : call.sink = some sink) : sink.sent <+: before.sent ++ events := by
  have hrel := hcall.sink
  rw [hsink] at hrel
  cases hrel with
  | some hrel =>
      have htaken : call.buffer.sent.take call.buffer.taken <+: events :=
        (List.take_prefix _ _).trans ⟨_, hcall.story⟩
      exact (List.prefix_append _ _).trans (hrel.2 ▸ (List.prefix_append_right_inj _).mpr htaken)

/-- The receiver takes an event out of the sink, and its price off the call. -/
theorem receive (hcall : call.Undisturbed kind source events ending)
    (hreceive : call.receive = some next) :
    next.Undisturbed kind source events ending ∧
      ∃ sink event others, call.sink = some sink ∧ sink.waiting = event :: others ∧
        next = { call with sink := some sink.take } ∧
        next.weight price + price event = call.weight price := by
  obtain ⟨later, hlater, rfl⟩ := Option.map_eq_some_iff.mp hreceive
  obtain ⟨sink, event, others, hsink, -, hwaiting, rfl⟩ := Channel.receive_cases hlater
  refine ⟨{ hcall with sink := ?_ }, sink, event, others, hsink, hwaiting, rfl, ?_⟩
  · have hrel := hcall.sink
    rw [hsink] at hrel
    cases hrel with
    | some hrel => exact .some ⟨hrel.1.take hwaiting, hrel.2⟩
  · simp only [weight, hsink, Option.map_some, Option.getD_some, Channel.waiting_take, hwaiting,
      List.tail_cons, load]
    omega

/-- A move of the engine or of the worker. -/
theorem inner (hcall : call.Undisturbed kind source events ending) {move : Move}
    (hinner : move.isInner = true) (hstep : call.step move = some next) :
    next.Undisturbed kind source events ending ∧ next.weight price < call.weight price := by
  cases move with
  | work => exact hcall.work price hstep
  | forward => exact hcall.forward price hstep
  | deliver => exact hcall.deliver price hstep
  | join => exact hcall.join price hstep
  | finish => exact hcall.finish price hstep
  | receive | close | drop | stop => nomatch hinner

/-- A held event is delivered, unless the receiver has still to take another. -/
theorem move_of_held (hcall : call.Undisturbed kind source events ending) {event : RunEvent}
    (hheld : call.held = some event) :
    (∃ move, move.isInner = true ∧ ∃ next, call.step move = some next) ∨
      ∃ sink event others, call.sink = some sink ∧ sink.waiting = event :: others := by
  have hrel := hcall.sink
  cases hsink : call.sink with
  | none => exact .inl ⟨.deliver, rfl, by simp [step, LocalCall.deliver, hheld, hsink]⟩
  | some sink =>
      rw [hsink] at hrel
      cases hrel with
      | some hrel =>
          cases hwaiting : sink.waiting with
          | cons event others => exact .inr ⟨sink, event, others, rfl, hwaiting⟩
          | nil =>
              have hroom := Channel.hasRoom_of_waiting_eq_nil hrel.1.capacity hwaiting
              exact .inl ⟨.deliver, rfl, by
                simp [step, LocalCall.deliver, hheld, hsink, hrel.1.isOpen, hroom]⟩

/-- Until a call returns, either the forwarder or the engine or what waits for them can move. -/
theorem move_of_isUnderWay (hcall : call.Undisturbed kind source events ending)
    (hheld : call.held = none) (hunderWay : call.isUnderWay = true) :
    ∃ move, move.isInner = true ∧ ∃ next, call.step move = some next := by
  cases hwaiting : call.buffer.waiting with
  | cons event others =>
      exact ⟨.forward, rfl, by simp [step, LocalCall.forward, hheld, hwaiting, hunderWay]⟩
  | nil =>
      cases hengine : call.engine with
      | ask further => exact ⟨.work, rfl, by simp [step, LocalCall.work, hengine]⟩
      | tell event further =>
          have hroom := Channel.hasRoom_of_waiting_eq_nil hcall.capacity hwaiting
          exact ⟨.work, rfl, by
            simp [step, LocalCall.work, hengine, hcall.isOpen hunderWay, hroom]⟩
      | done result =>
          cases hphase : call.phase with
          | forwarding =>
              refine ⟨.join, rfl, ?_⟩
              cases result <;> simp [step, LocalCall.join, hphase, hheld, hengine]
          | draining last =>
              exact ⟨.finish, rfl, by simp [step, LocalCall.finish, hphase, hheld, hwaiting]⟩
          | returned reply => simp [isUnderWay, hphase] at hunderWay
          | dropped => simp [isUnderWay, hphase] at hunderWay

/-- Only a receiver that takes no events can hold up a call. -/
theorem returned_or_move (hcall : call.Undisturbed kind source events ending) :
    (∃ reply, call.phase = .returned reply) ∨
      (∃ move, move.isInner = true ∧ ∃ next, call.step move = some next) ∨
      ∃ sink event others, call.sink = some sink ∧ sink.waiting = event :: others := by
  cases hheld : call.held with
  | some event => exact .inr (hcall.move_of_held hheld)
  | none =>
      by_cases hunderWay : call.isUnderWay = true
      · exact .inr (.inl (hcall.move_of_isUnderWay hheld hunderWay))
      · have hfits := hcall.phase
        unfold PhaseFits at hfits
        unfold isUnderWay at hunderWay
        split at hunderWay <;> simp_all

/-- A call that has returned has delivered all events. -/
theorem outcome_of_returned (hcall : call.Undisturbed kind source events ending)
    {reply : Except WorkerError Response} (hphase : call.phase = .returned reply) :
    reply = LocalWorker.answer kind ending ∧ call.engine = .done ending ∧
      call.delivered = heardBy source events := by
  have hfits := hcall.phase
  simp only [PhaseFits, hphase, hcall.kind_eq] at hfits
  obtain ⟨hengine, hheld, hwaiting, rfl⟩ := hfits
  refine ⟨rfl, hengine, ?_⟩
  have hstory := hcall.story
  have hsink := hcall.sink
  have hbuffer := call.buffer.sent_split
  rw [hwaiting, List.append_nil] at hbuffer
  rw [hengine, Dialogue.fullEvents, List.append_nil] at hstory
  rw [hbuffer, hheld, hstory] at hsink
  unfold delivered heardBy
  generalize call.sink = sink at hsink ⊢
  cases hsink with
  | none => rfl
  | some hrel => simpa using hrel.2

end Undisturbed

/-- A move of the engine, the worker, or a receiver that stays. -/
def Moves (call next : LocalCall) : Prop :=
  ∃ move : Move, move.isSteady = true ∧ call.step move = some next

theorem returned?_eq_some_iff {reply : Except WorkerError Response} :
    call.returned? = some reply ↔ call.phase = .returned reply := by
  cases hphase : call.phase <;> simp [returned?, hphase]

/-- Following a schedule of steady moves is a run. -/
theorem moves_of_run (call : LocalCall) (schedule : List Move) :
    Relation.ReflTransGen Moves call (call.run (schedule.filter (·.isSteady))) := by
  induction schedule generalizing call with
  | nil => exact .refl
  | cons move others ih =>
      by_cases hsteady : move.isSteady = true
      · rw [List.filter_cons_of_pos hsteady, run, List.foldl_cons]
        cases hstep : call.step move with
        | none => exact ih call
        | some next => exact .head ⟨move, hsteady, hstep⟩ (ih next)
      · rw [List.filter_cons_of_neg hsteady]
        exact ih call

/-- What a call comes to: what it returns, and what has reached its sink by then. -/
def outcome? (call : LocalCall) : Option (Except WorkerError Response × List RunEvent) :=
  call.returned?.map (·, call.delivered)

theorem outcome?_eq_none_iff :
    call.outcome? = none ↔ ¬∃ reply, call.phase = .returned reply := by
  cases hphase : call.phase <;> simp [outcome?, returned?, hphase]

/-- Every move keeps a call on its course and brings it nearer to its end. -/
theorem Undisturbed.moves {kind : RequestKind} {source : Option Channel} {events : List RunEvent}
    {ending : Ending} (hcall : call.Undisturbed kind source events ending)
    (hmove : call.Moves next) :
    next.Undisturbed kind source events ending ∧
      next.weight (fun _ => 1) < call.weight (fun _ => 1) := by
  obtain ⟨move, hsteady, hstep⟩ := hmove
  cases move with
  | receive =>
      obtain ⟨hnext, -, -, -, -, -, -, hweight⟩ := hcall.receive (fun _ => 1) hstep
      exact ⟨hnext, Nat.lt_of_succ_le (Nat.le_of_eq hweight)⟩
  | work | forward | deliver | join | finish => exact hcall.inner _ rfl hstep
  | close | drop | stop => nomatch hsteady

theorem Undisturbed.run {kind : RequestKind} {source : Option Channel} {events : List RunEvent}
    {ending : Ending} (hcall : call.Undisturbed kind source events ending)
    (hrun : Relation.ReflTransGen Moves call next) :
    next.Undisturbed kind source events ending :=
  Returns.invariant_of_run (fun _ _ hcall hmove => (hcall.moves hmove).1) hcall hrun

/-- In whatever order the sides move, a call returns what the engine comes to, and delivers all
events of the engine before. -/
theorem returns_start {worker : LocalWorker} (hwilling : worker.cancelled = false)
    {request : Request} {ending : Ending}
    (hresult : (worker.engine.serve request).fullResult = ending)
    (hsilent : ∀ reason, ending = .error reason → (worker.engine.serve request).fullEvents = [])
    (eventBuffer : Nat) {source : Option Channel} (hsource : ∀ channel ∈ source, channel.IsSteady) :
    Returns Moves outcome? (start worker request eventBuffer source)
      (LocalWorker.answer request.kind ending,
        heardBy source (worker.engine.serve request).fullEvents) := by
  refine .of_weight Nat.lt_wfRel.wf (weight fun _ => 1) (fun call next => Undisturbed.moves)
    (fun call hcall => ?_) (undisturbed_start hwilling hresult hsilent eventBuffer hsource)
  · by_cases hreturned : ∃ reply, call.phase = .returned reply
    · obtain ⟨reply, hphase⟩ := hreturned
      obtain ⟨rfl, -, hdelivered⟩ := hcall.outcome_of_returned hphase
      exact .inl (by simp [outcome?, returned?, hphase, hdelivered])
    · refine .inr ⟨outcome?_eq_none_iff.mpr hreturned, ?_⟩
      rcases hcall.returned_or_move.resolve_left hreturned with ⟨move, hinner, next, hstep⟩ |
        ⟨sink, event, others, hsink, hwaiting⟩
      · exact ⟨next, move, Move.isSteady_of_isInner hinner, hstep⟩
      · exact ⟨_, .receive, rfl, hcall.receive_eq hsink hwaiting⟩

end LocalCall

end Worker

end GateBench
