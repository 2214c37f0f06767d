import GateBench.Proofs.LocalCall
import GateBench.Proofs.TextLines
import GateBench.Worker.Pipe

/-!
The loop of a worker behind pipes, character by character.  It reads lines; a request becomes a
call whose sink it empties itself, writing a frame for each event, and behind the last event it
writes the reply.  While a frame is being written, the engine works on, but the call waits.
-/

namespace GateBench.Worker

open Message

/-- The characters that a frame is written as. -/
def frameText (frame : Outbound) : List Char :=
  frame.line.toList ++ ['\n']

theorem acceptReply_eq {kind : RequestKind} {response : Response}
    (hanswers : response.answers kind = true) : acceptReply kind response = .ok response := by
  simp [acceptReply, Response.expectKind, hanswers, Except.mapError]

/-- The text of a line that was read up to its line feed: a carriage return in front of it belongs
to the line end. -/
def endedLine (line : List Char) : String :=
  String.ofList (if line.getLast? = some '\r' then line.dropLast else line)

theorem endedLine_toList {line : String} (hbreak : '\r' ∉ line.toList) :
    endedLine line.toList = line := by
  have hlast : line.toList.getLast? ≠ some '\r' := fun hlast =>
    hbreak (List.mem_of_getLast? hlast)
  simp [endedLine, hlast]

/-- The loop of a worker: the line being read, the call under way with the id of its request, and
what has still to be written. -/
structure ServeLoop where
  worker : LocalWorker
  answered : Nat := 0
  line : List Char := []
  current : Option (Nat × LocalCall) := none
  unwritten : List Char := []

namespace ServeLoop

variable {loop next : ServeLoop}

/-- The sink of every call. -/
def sink : Channel :=
  { capacity := defaultEventBuffer }

/-- A loop waits for a request. -/
structure IsIdle (worker : LocalWorker) (loop : ServeLoop) : Prop where
  worker_eq : loop.worker = worker
  line : loop.line = []
  current : loop.current = none
  unwritten : loop.unwritten = []

theorem sink_isSteady : sink.IsSteady :=
  ⟨rfl, by decide, Nat.le_refl _⟩

/-- Answer a request without a call for it. -/
def refuse (loop : ServeLoop) (id : Nat) (response : Response) : ServeLoop :=
  { loop with
    answered := loop.answered + 1, current := none
    unwritten := frameText (.reply id response) }

/-- Serve a line. -/
def serve [JsonWording] (loop : ServeLoop) (line : String) : ServeLoop :=
  match LineMeaning.ofLine line with
  | .nothing => loop
  | .invalid id error => loop.refuse id (invalidRequest error)
  | .request ⟨id, request⟩ =>
    if loop.worker.isStopped then loop.refuse id (runtimeFault .terminated)
    else
      let call := LocalCall.start loop.worker request defaultEventBuffer (some sink)
      { loop with current := some (id, call) }

/-- Read a character, unless a request is being served. -/
def read [JsonWording] (loop : ServeLoop) (c : Char) : Option ServeLoop :=
  if loop.current.isSome || !loop.unwritten.isEmpty then none
  else if c = '\n' then some ({ loop with line := [] }.serve (endedLine loop.line))
  else some { loop with line := loop.line ++ [c] }

/-- The call makes a move of its own: the engine always may, the worker only while nothing is being
written. -/
def advance (loop : ServeLoop) (move : Move) : Option ServeLoop := do
  let (id, call) ← loop.current
  if move = .work || move.isInner && loop.unwritten.isEmpty then
    let call ← call.step move
    some { loop with current := some (id, call) }
  else none

/-- Take an event out of the sink and begin to write it. -/
def relay (loop : ServeLoop) : Option ServeLoop := do
  let (id, call) ← loop.current
  let event ← call.sink.bind (·.waiting.head?)
  if loop.unwritten.isEmpty then
    some { loop with
      current := some (id, { call with sink := call.sink.map Channel.take })
      unwritten := frameText (.event id event) }
  else none

/-- Begin to write the reply, once the call has returned and its sink is empty. -/
def answer (loop : ServeLoop) : Option ServeLoop := do
  let (id, call) ← loop.current
  let reply ← call.returned?
  if loop.unwritten.isEmpty && (call.sink.bind (·.waiting.head?)).isNone then
    some ({ loop with worker := { loop.worker with cancelled := call.cancelled } }.refuse id
      (toldOutcome reply))
  else none

/-! ### What a move can do -/

theorem read_cases [JsonWording] {c : Char} (hread : loop.read c = some next) :
    loop.current = none ∧ loop.unwritten = [] ∧
      (c = '\n' ∧ next = { loop with line := [] }.serve (endedLine loop.line) ∨
        c ≠ '\n' ∧ next = { loop with line := loop.line ++ [c] }) := by
  unfold read at hread
  split_ifs at hread with hbusy hfeed
  all_goals
    obtain ⟨hcurrent, hunwritten⟩ : loop.current = none ∧ loop.unwritten = [] := by
      simpa using hbusy
    refine ⟨hcurrent, hunwritten, ?_⟩
  · exact .inl ⟨hfeed, (Option.some.inj hread).symm⟩
  · exact .inr ⟨hfeed, (Option.some.inj hread).symm⟩

theorem advance_cases {move : Move} (hadvance : loop.advance move = some next) :
    ∃ id call moved, loop.current = some (id, call) ∧ move.isInner = true ∧
      call.step move = some moved ∧ next = { loop with current := some (id, moved) } := by
  unfold advance at hadvance
  cases hcurrent : loop.current with
  | none => simp [hcurrent] at hadvance
  | some current =>
      obtain ⟨id, call⟩ := current
      simp only [hcurrent, Option.bind_eq_bind, Option.bind_some] at hadvance
      split_ifs at hadvance with hmay
      obtain ⟨moved, hstep, hnext⟩ := Option.bind_eq_some_iff.mp hadvance
      have hinner : move.isInner = true := by
        rcases Bool.or_eq_true _ _ ▸ hmay with hwork | hinner
        · rw [of_decide_eq_true hwork]
          rfl
        · exact (Bool.and_eq_true _ _ ▸ hinner).1
      exact ⟨id, call, moved, rfl, hinner, hstep, (Option.some.inj hnext).symm⟩

theorem relay_cases (hrelay : loop.relay = some next) :
    ∃ id call sink event others, loop.current = some (id, call) ∧ loop.unwritten = [] ∧
      call.sink = some sink ∧ sink.waiting = event :: others ∧
      next = { loop with
        current := some (id, { call with sink := some sink.take })
        unwritten := frameText (.event id event) } := by
  unfold relay at hrelay
  cases hcurrent : loop.current with
  | none => simp [hcurrent] at hrelay
  | some current =>
      obtain ⟨id, call⟩ := current
      cases hsink : call.sink with
      | none => simp [hcurrent, hsink] at hrelay
      | some sink =>
          cases hwaiting : sink.waiting with
          | nil => simp [hcurrent, hsink, hwaiting] at hrelay
          | cons event others =>
              obtain ⟨hunwritten, rfl⟩ := by
                simpa [hcurrent, hsink, hwaiting] using hrelay
              exact ⟨id, call, sink, event, others, rfl, hunwritten, hsink, hwaiting, rfl⟩

theorem answer_cases (hanswer : loop.answer = some next) :
    ∃ id call reply, loop.current = some (id, call) ∧ loop.unwritten = [] ∧
      call.phase = .returned reply ∧ (∀ sink ∈ call.sink, sink.waiting = []) ∧
      next = { loop with worker := { loop.worker with cancelled := call.cancelled } }.refuse id
        (toldOutcome reply) := by
  unfold answer at hanswer
  cases hcurrent : loop.current with
  | none => simp [hcurrent] at hanswer
  | some current =>
      obtain ⟨id, call⟩ := current
      cases hphase : call.phase with
      | returned reply =>
          obtain ⟨⟨hunwritten, hempty⟩, rfl⟩ := by
            simpa [hcurrent, LocalCall.returned?, hphase] using hanswer
          exact ⟨id, call, reply, rfl, hunwritten, hphase, hempty, rfl⟩
      | forwarding | draining | dropped =>
          simp [hcurrent, LocalCall.returned?, hphase] at hanswer

/-! ### Serving one request -/

/-- The characters of the frames of an outcome. -/
def outcomeText (id : Nat) (events : List RunEvent) (response : Response) : List Char :=
  events.flatMap (fun event => frameText (.event id event)) ++ frameText (.reply id response)

@[simp]
theorem outcomeText_nil (id : Nat) (response : Response) :
    outcomeText id [] response = frameText (.reply id response) := rfl

@[simp]
theorem outcomeText_cons (id : Nat) (event : RunEvent) (others : List RunEvent)
    (response : Response) :
    outcomeText id (event :: others) response =
      frameText (.event id event) ++ outcomeText id others response := by
  simp [outcomeText]

/-- What a worker has to understand of the line of a request, and the course that its engine takes:
it tells `events` and comes to an ending, which is told as a response.  Where it breaks down, it has
told nothing. -/
structure Course [JsonWording] (worker : LocalWorker) (id : Nat) (request : Request)
    (events : List RunEvent) (ending : Ending) (response : Response) : Prop where
  notStopped : worker.isStopped = false
  events_eq : (worker.engine.serve request).fullEvents = events
  result : (worker.engine.serve request).fullResult = ending
  silent : ∀ reason, ending = .error reason → events = []
  told : toldOutcome (LocalWorker.answer request.kind ending) = response
  understood : LineMeaning.ofLine (Inbound.line ⟨id, request⟩) = .request ⟨id, request⟩
  oneLine : Text.IsOneLine (Inbound.line ⟨id, request⟩)

/-- A loop with a request to serve, whose engine tells `events` and comes to an ending, told as a
response: the characters that come in are what is left of the request's line, and the loop has still
to write the text at the end of the frames of the outcome.  -/
inductive Serves (worker : LocalWorker) (id : Nat) (request : Request) (events : List RunEvent)
    (ending : Ending) (response : Response) :
    ServeLoop → (incoming toCome : List Char) → Prop where
  | asked {loop : ServeLoop} {incoming : List Char} (hworker : loop.worker = worker)
      (hcurrent : loop.current = none) (hunwritten : loop.unwritten = [])
      (hfeed : '\n' ∉ loop.line)
      (hline : loop.line ++ incoming = (Inbound.line ⟨id, request⟩).toList ++ ['\n']) :
      Serves worker id request events ending response loop incoming
        (outcomeText id events response)
  | serving {loop : ServeLoop} (call : LocalCall) (taken : Nat)
      (hworker : loop.worker = worker) (hcurrent : loop.current = some (id, call))
      (hline : loop.line = [])
      (hcall : call.Undisturbed request.kind (some ServeLoop.sink) events ending)
      (htaken : call.sink.map (·.taken) = some taken) :
      Serves worker id request events ending response loop []
        (loop.unwritten ++ outcomeText id (events.drop taken) response)
  | answered {loop : ServeLoop} (hworker : loop.worker = worker)
      (hcurrent : loop.current = none) (hline : loop.line = []) :
      Serves worker id request events ending response loop [] loop.unwritten

/-- The weight of an event in the sink, which has still to be written. -/
def price (id : Nat) (event : RunEvent) : Nat :=
  4 * (frameText (.event id event)).length + 1

/-- The weight of what a loop has still to do for a request that is answered with a response. -/
def weight (response : Response) (loop : ServeLoop) : Nat :=
  4 * loop.unwritten.length +
    match loop.current with
    | none => 0
    | some (id, call) =>
      call.weight (price id) + (4 * (frameText (.reply id response)).length + 1)

/-- A loop that serves a request: its call is on its course, and `taken` events have left the
sink. -/
structure Busy (worker : LocalWorker) (id : Nat) (kind : RequestKind) (events : List RunEvent)
    (ending : Ending) (taken : Nat) (loop : ServeLoop) : Prop where
  worker_eq : loop.worker = worker
  line : loop.line = []
  call : ∃ call, loop.current = some (id, call) ∧
    call.Undisturbed kind (some ServeLoop.sink) events ending ∧
    call.sink.map (·.taken) = some taken

namespace Busy

variable {worker : LocalWorker} {id : Nat} {kind : RequestKind} {events : List RunEvent}
  {ending : Ending} {taken : Nat}

/-- A call that begins is on its course. -/
theorem start (loop : ServeLoop) (id : Nat) {request : Request} (hworker : loop.worker = worker)
    (hwilling : worker.isStopped = false) (hline : loop.line = [])
    (hresult : (worker.engine.serve request).fullResult = ending)
    (hsilent : ∀ reason, ending = .error reason → (worker.engine.serve request).fullEvents = []) :
    Busy worker id request.kind (worker.engine.serve request).fullEvents ending 0
      { loop with
        current := some (id,
          LocalCall.start loop.worker request defaultEventBuffer (some ServeLoop.sink)) } := by
  subst hworker
  refine ⟨rfl, hline, _, rfl, ?_, rfl⟩
  apply LocalCall.undisturbed_start (LocalWorker.willing_of_not_stopped hwilling) hresult hsilent
  intro channel hchannel
  exact Option.some.inj hchannel ▸ sink_isSteady

theorem advance (hbusy : loop.Busy worker id kind events ending taken) {move : Move}
    (hadvance : loop.advance move = some next) (written : Response) :
    next.Busy worker id kind events ending taken ∧ next.unwritten = loop.unwritten ∧
      next.answered = loop.answered ∧ next.weight written < loop.weight written := by
  obtain ⟨call, hsome, hcall, htaken⟩ := hbusy.call
  obtain ⟨id', call', moved, hcurrent, hinner, hstep, rfl⟩ := advance_cases hadvance
  obtain ⟨rfl, rfl⟩ : id = id' ∧ call = call' := by simpa [hsome] using hcurrent
  obtain ⟨hmoved, hlighter⟩ := hcall.inner (price id) hinner hstep
  refine ⟨⟨hbusy.worker_eq, hbusy.line, moved, rfl, hmoved, ?_⟩, rfl, rfl, ?_⟩
  · rw [LocalCall.taken_of_inner hinner hstep, htaken]
  · simpa [weight, hsome] using hlighter

/-- The next event is taken out of the sink to be written. -/
theorem relay (hbusy : loop.Busy worker id kind events ending taken)
    (hrelay : loop.relay = some next) (written : Response) :
    next.Busy worker id kind events ending (taken + 1) ∧ loop.unwritten = [] ∧
      (∃ event, events.drop taken = event :: events.drop (taken + 1) ∧
        next.unwritten = frameText (.event id event)) ∧
      next.answered = loop.answered ∧ next.weight written < loop.weight written := by
  obtain ⟨call, hsome, hcall, htaken⟩ := hbusy.call
  obtain ⟨id', call', sink, event, others, hcurrent, hunwritten, hsink, hwaiting, rfl⟩ :=
    relay_cases hrelay
  obtain ⟨rfl, rfl⟩ : id = id' ∧ call = call' := by simpa [hsome] using hcurrent
  obtain rfl : sink.taken = taken := by simpa [hsink] using htaken
  obtain ⟨hmoved, _, _, _, hsink', hwaiting', -, hpaid⟩ :=
    hcall.receive (price id) (hcall.receive_eq hsink hwaiting)
  obtain rfl := Option.some.inj (hsink.symm.trans hsink')
  obtain ⟨rfl, -⟩ := List.cons.inj (hwaiting.symm.trans hwaiting')
  have hfirst : events.drop sink.taken = event :: events.drop (sink.taken + 1) :=
    Channel.drop_taken_eq_cons hwaiting (hcall.sent_isPrefix hsink)
  refine ⟨⟨hbusy.worker_eq, hbusy.line, _, rfl, hmoved, rfl⟩, hunwritten, ⟨event, hfirst, rfl⟩,
    rfl, ?_⟩
  simp only [weight, hsome, hunwritten, List.length_nil]
  simp only [price] at hpaid
  omega

/-- The reply is written once all events are. -/
theorem answer (hbusy : loop.Busy worker id kind events ending taken)
    (hwilling : worker.isStopped = false) (hanswer : loop.answer = some next) :
    loop.unwritten = [] ∧ events.drop taken = [] ∧
      next = { loop with worker }.refuse id (toldOutcome (LocalWorker.answer kind ending)) ∧
      next.weight (toldOutcome (LocalWorker.answer kind ending)) <
        loop.weight (toldOutcome (LocalWorker.answer kind ending)) := by
  obtain ⟨call, hsome, hcall, htaken⟩ := hbusy.call
  obtain ⟨id', call', reply, hcurrent, hunwritten, hphase, hempty, rfl⟩ := answer_cases hanswer
  obtain ⟨rfl, rfl⟩ : id = id' ∧ call = call' := by simpa [hsome] using hcurrent
  obtain ⟨rfl, -, hdelivered⟩ := hcall.outcome_of_returned hphase
  have hworker : { loop.worker with cancelled := call.cancelled } = worker := by
    rw [hcall.willing, hbusy.worker_eq, ← LocalWorker.willing_of_not_stopped hwilling]
  have hnone : events.drop taken = [] := by
    obtain ⟨sink, hsink, rfl⟩ := Option.map_eq_some_iff.mp htaken
    have hsent : sink.sent = events := by
      simpa [LocalCall.delivered, hsink, heardBy, ServeLoop.sink] using hdelivered
    exact hsent ▸ hempty sink hsink
  rw [hworker]
  refine ⟨hunwritten, hnone, rfl, ?_⟩
  simp only [weight, hsome, refuse]
  omega

/-- With nothing to write, a loop that serves a request can go on with it. -/
theorem exists_move (hbusy : loop.Busy worker id kind events ending taken)
    (hunwritten : loop.unwritten = []) :
    (∃ move next, loop.advance move = some next) ∨ (∃ next, loop.relay = some next) ∨
      ∃ next, loop.answer = some next := by
  obtain ⟨call, hcurrent, hcall, htaken⟩ := hbusy.call
  obtain ⟨sink, hsink, -⟩ := Option.map_eq_some_iff.mp htaken
  cases hwaiting : sink.waiting with
  | cons event others =>
      exact .inr (.inl (by simp [ServeLoop.relay, hcurrent, hunwritten, hsink, hwaiting]))
  | nil =>
      rcases hcall.returned_or_move with ⟨reply, hphase⟩ | ⟨move, hinner, moved, hstep⟩ |
        ⟨sink', event, others, hsink', hwaiting'⟩
      · exact .inr (.inr (by
          simp [ServeLoop.answer, hcurrent, hunwritten, hsink, hwaiting, LocalCall.returned?,
            hphase]))
      · exact .inl ⟨move, by simp [ServeLoop.advance, hcurrent, hunwritten, hinner, hstep]⟩
      · rw [Option.some.inj (hsink.symm.trans hsink'), hwaiting'] at hwaiting
        cases hwaiting

end Busy

namespace Serves

variable {worker : LocalWorker} {id : Nat} {request : Request} {events : List RunEvent}
  {ending : Ending} {response : Response} {incoming toCome : List Char}

/-- A call is only under way on a loop that has read its request. -/
theorem busy (hserves : Serves worker id request events ending response loop incoming toCome)
    (hcurrent : loop.current.isSome = true) :
    incoming = [] ∧ ∃ taken, loop.Busy worker id request.kind events ending taken ∧
      toCome = loop.unwritten ++ outcomeText id (events.drop taken) response := by
  cases hserves with
  | asked _ hnone => simp [hnone] at hcurrent
  | answered _ hnone => simp [hnone] at hcurrent
  | serving call taken hworker hsome hline hcall htaken =>
      exact ⟨rfl, taken, ⟨hworker, hline, call, hsome, hcall, htaken⟩, rfl⟩

theorem of_busy {taken : Nat} (hbusy : loop.Busy worker id request.kind events ending taken)
    (response : Response) :
    Serves worker id request events ending response loop []
      (loop.unwritten ++ outcomeText id (events.drop taken) response) := by
  obtain ⟨call, hcurrent, hcall, htaken⟩ := hbusy.call
  exact .serving call taken hbusy.worker_eq hcurrent hbusy.line hcall htaken

theorem read [JsonWording] {c : Char} (hcourse : Course worker id request events ending response)
    (hserves : Serves worker id request events ending response loop (c :: incoming) toCome)
    (hread : loop.read c = some next) :
    Serves worker id request events ending response next incoming toCome := by
  obtain ⟨hcurrent, hunwritten, hnext⟩ := read_cases hread
  cases hserves with
  | asked hworker _ _ hfeed hline =>
      rcases hnext with ⟨hc, hnext⟩ | ⟨hc, hnext⟩
      · subst hc
        obtain ⟨hwhole, rfl⟩ := Text.eq_of_append_feed hfeed hcourse.oneLine.1 hline
        have hbusy := Busy.start { loop with line := [] } id hworker
          hcourse.notStopped rfl hcourse.result (hcourse.events_eq ▸ hcourse.silent)
        have hserves := of_busy (hcourse.events_eq ▸ hbusy) response
        simp only [hunwritten, List.drop_zero, List.nil_append] at hserves
        rw [hnext, hwhole, endedLine_toList hcourse.oneLine.2, serve, hcourse.understood]
        simpa only [hworker, hunwritten, hcourse.notStopped, Bool.false_eq_true, if_false]
          using hserves
      · rw [hnext]
        exact .asked hworker hcurrent hunwritten (by simpa using ⟨hfeed, Ne.symm hc⟩)
          (by simpa using hline)

theorem advance {move : Move}
    (hserves : Serves worker id request events ending response loop incoming toCome)
    (hadvance : loop.advance move = some next) :
    Serves worker id request events ending response next incoming toCome ∧
      next.weight response < loop.weight response := by
  obtain ⟨_, _, _, hcurrent, -⟩ := advance_cases hadvance
  obtain ⟨rfl, taken, hbusy, rfl⟩ := hserves.busy (by simp [hcurrent])
  obtain ⟨hnext, hunwritten, -, hlighter⟩ := hbusy.advance hadvance response
  exact ⟨hunwritten ▸ of_busy hnext response, hlighter⟩

theorem relay (hserves : Serves worker id request events ending response loop incoming toCome)
    (hrelay : loop.relay = some next) :
    Serves worker id request events ending response next incoming toCome ∧
      next.weight response < loop.weight response := by
  obtain ⟨_, _, _, _, _, hcurrent, -⟩ := relay_cases hrelay
  obtain ⟨rfl, taken, hbusy, rfl⟩ := hserves.busy (by simp [hcurrent])
  obtain ⟨hnext, hunwritten, ⟨event, hfirst, htext⟩, -, hlighter⟩ := hbusy.relay hrelay response
  have hserves := of_busy hnext response
  rw [htext, ← outcomeText_cons, ← hfirst] at hserves
  exact ⟨by simpa [hunwritten] using hserves, hlighter⟩

theorem answer [JsonWording] (hcourse : Course worker id request events ending response)
    (hserves : Serves worker id request events ending response loop incoming toCome)
    (hanswer : loop.answer = some next) :
    Serves worker id request events ending response next incoming toCome ∧
      next.weight response < loop.weight response := by
  obtain ⟨_, _, _, hcurrent, -⟩ := answer_cases hanswer
  obtain ⟨rfl, taken, hbusy, rfl⟩ := hserves.busy (by simp [hcurrent])
  obtain ⟨hunwritten, hnone, rfl, hlighter⟩ := hbusy.answer hcourse.notStopped hanswer
  rw [hcourse.told] at hlighter ⊢
  rw [hunwritten, hnone]
  exact ⟨.answered rfl rfl hbusy.line, hlighter⟩

/-- A character that is written is the next of the text. -/
theorem write {c : Char} {others : List Char}
    (hserves : Serves worker id request events ending response loop incoming toCome)
    (hunwritten : loop.unwritten = c :: others) :
    ∃ further, toCome = c :: further ∧
      Serves worker id request events ending response { loop with unwritten := others } incoming
        further := by
  cases hserves with
  | asked _ _ hnone => simp [hnone] at hunwritten
  | serving call taken hworker hcurrent hline hcall htaken =>
      exact ⟨_, by rw [hunwritten, List.cons_append],
        .serving call taken hworker hcurrent hline hcall htaken⟩
  | answered hworker hcurrent hline =>
      exact ⟨_, hunwritten, .answered hworker hcurrent hline⟩

/-- Only a loop that has read its request writes. -/
theorem incoming_eq_nil
    (hserves : Serves worker id request events ending response loop incoming toCome)
    (hwrites : loop.unwritten ≠ []) : incoming = [] := by
  cases hserves with
  | asked _ _ hunwritten => exact absurd hunwritten hwrites
  | serving | answered => rfl

/-- A loop only waits for characters to come in, for room to write, or for its next request. -/
theorem moves_or_waits [JsonWording]
    (hserves : Serves worker id request events ending response loop incoming toCome) :
    (∃ c rest next, incoming = c :: rest ∧ loop.read c = some next) ∨
      (∃ c rest, loop.unwritten = c :: rest) ∨
      (∃ move next, loop.advance move = some next) ∨ (∃ next, loop.relay = some next) ∨
      (∃ next, loop.answer = some next) ∨ toCome = [] := by
  cases hunwritten : loop.unwritten with
  | cons c rest => exact .inr (.inl ⟨c, rest, rfl⟩)
  | nil =>
      cases hserves with
      | answered => exact .inr (.inr (.inr (.inr (.inr hunwritten))))
      | serving call taken hworker hcurrent hline hcall htaken =>
          have hbusy : loop.Busy worker id request.kind events ending taken :=
            ⟨hworker, hline, call, hcurrent, hcall, htaken⟩
          rcases hbusy.exists_move hunwritten with hadvance | hrelay | hanswer
          · exact .inr (.inr (.inl hadvance))
          · exact .inr (.inr (.inr (.inl hrelay)))
          · exact .inr (.inr (.inr (.inr (.inl hanswer))))
      | asked hworker hcurrent _ hfeed hline =>
          cases hincoming : incoming with
          | nil =>
              rw [hincoming, List.append_nil] at hline
              exact absurd (by simp [hline]) hfeed
          | cons c rest =>
              refine .inl ⟨c, rest, ?_⟩
              by_cases hc : c = '\n' <;> simp [ServeLoop.read, hcurrent, hunwritten, hc]

/-- A loop that has nothing more to write waits for its next request. -/
theorem isIdle (hserves : Serves worker id request events ending response loop incoming toCome)
    (hdone : toCome = []) : incoming = [] ∧ loop.IsIdle worker := by
  cases hserves with
  | asked => simp [outcomeText, frameText] at hdone
  | serving => simp [outcomeText, frameText] at hdone
  | answered hworker hcurrent hline => exact ⟨rfl, hworker, hline, hcurrent, hdone⟩

end Serves

end ServeLoop

end GateBench.Worker
