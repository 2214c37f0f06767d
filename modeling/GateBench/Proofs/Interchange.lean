import GateBench.Proofs.CheckedLookups
import GateBench.Proofs.CircuitReply
import GateBench.Proofs.Crossing

/-!
Workers behind pipes do what workers within the host do.  The lines that cross are what the other
side takes them for; so a call over a link comes to what the engine says, and a call of a local
worker over the same engine comes to the same.  They part where the engine breaks down: within the
host that is an error of the worker, and behind pipes it is a failed reply.
-/

namespace GateBench

open Message

/-! ### Lines that cross -/

namespace Worker

theorem ofLine_inbound [JsonWording] {frame : Inbound} (hrange : frame.InRange) :
    LineMeaning.ofLine frame.line = .request frame := by
  rw [LineMeaning.ofLine, Inbound.decodeLine_line hrange]

theorem inbound_isOneLine {frame : Inbound} (hrange : frame.InRange) :
    Text.IsOneLine frame.line :=
  not_lineBreak_of_mem_compact (Inbound.carries hrange).plain

theorem outbound_isOneLine {frame : Outbound} (hrange : frame.InRange) :
    Text.IsOneLine frame.line :=
  not_lineBreak_of_mem_compact (Outbound.carries hrange).plain

theorem verdict_event [JsonWording] {id : Nat} {event : RunEvent} (hid : id < UInt64.size)
    (hevent : event.InRange) :
    verdict id .run (Outbound.event id event).line = .event event := by
  have hrange : (Outbound.event id event).InRange := ⟨hid, hevent⟩
  have hdecoded : decodeLine Outbound.decode (Outbound.event id event).line =
      .ok (.event id event) := by
    rw [Outbound.decodeLine_line hrange, if_pos]
    simp [Outbound.toJson, RunEvent.toJson, Nat.lt_succ_iff]
  simp [verdict, hdecoded, Outbound.expectId, Outbound.id]

theorem verdict_reply [JsonWording] {id : Nat} {kind : RequestKind} {response : Response}
    (hrange : (Outbound.reply id response).InRange)
    (hdepth : (Outbound.reply id response).toJson.depth < 128)
    (hanswers : response.answers kind = true) :
    verdict id kind (Outbound.reply id response).line = .decided (.ok response) := by
  have hdecoded := Outbound.decodeLine_line hrange
  rw [if_pos hdepth] at hdecoded
  simp [verdict, hdecoded, Outbound.expectId, Outbound.id, acceptReply_eq hanswers]

/-- The lines of an outcome are read as the outcome. -/
theorem readReply_outcome [JsonWording] {id : Nat} {kind : RequestKind} {events : List RunEvent}
    {response : Response} (hlegible : Crossing.Legible id kind events response) :
    readReply id kind ((events.map (Outbound.event id) ++ [Outbound.reply id response]).map
      fun frame => .ok frame.line) = ⟨events, some (.ok response), []⟩ := by
  obtain ⟨hevents, hreply⟩ := hlegible
  induction events with
  | nil =>
      rw [List.map_nil, List.nil_append, List.map_singleton, readReply_cons, hreply.2]
      rfl
  | cons event others ih =>
      rw [List.map_cons, List.cons_append, List.map_cons, readReply_cons,
        (hevents event List.mem_cons_self).2]
      simp only [ih fun other hmem => hevents other (List.mem_cons_of_mem _ hmem)]

theorem linesOf_framesText {frames : List Outbound}
    (hframes : ∀ frame ∈ frames, Text.IsOneLine frame.line) :
    Text.linesOf (framesText frames) = frames.map Outbound.line := by
  have hlines : ∀ line ∈ frames.map Outbound.line, Text.IsOneLine line := by simpa using hframes
  simpa [framesText, Function.comp_def] using Text.linesOf_unlines hlines

/-- The call of a worker behind pipes, with nothing else on the pipes, comes to what its child's
worker says. -/
theorem pipeCall_eq [JsonWording] {worker : LocalWorker} {id : Nat} {request : Request}
    {events : List RunEvent} {ending : Ending} {response : Response}
    (hcall : worker.call request true = ⟨events, LocalWorker.answer request.kind ending, worker⟩)
    (hcourse : ServeLoop.Course worker id request events ending response)
    (hlegible : Crossing.Legible id request.kind events response) :
    PipeWorker.call servingChild ⟨worker, [], id, false⟩ request =
      (events, some (.ok response), ⟨worker, [], id + 1, false⟩) := by
  have hframes : ∀ frame ∈ events.map (Outbound.event id) ++ [.reply id response],
      Text.IsOneLine frame.line := by
    intro frame hmem
    rcases List.mem_append.mp hmem with hevent | hreply
    · obtain ⟨event, htold, rfl⟩ := List.mem_map.mp hevent
      exact (hlegible.event event htold).1
    · rw [List.mem_singleton.mp hreply]
      exact hlegible.reply.1
  have hserved : serveLine worker (Inbound.line ⟨id, request⟩) =
      (events.map (Outbound.event id) ++ [.reply id response], worker) := by
    simp [serveLine, hcourse.understood, hcall, LocalOutcome.frames, hcourse.told]
  have hreading := readReply_outcome hlegible
  simp only [PipeWorker.call, servingChild, hserved, linesOf_framesText hframes, List.map_map,
    Function.comp_def, List.nil_append] at hreading ⊢
  simp only [hreading, Option.isNone_some, Bool.false_and, Bool.false_eq_true, if_false]

/-- In whatever order the sides move, a worker whose engine takes a course delivers the same events
within the host and behind pipes; within the host it returns its answer, and behind pipes what is
told of it. -/
theorem returns_course [JsonWording] {worker : LocalWorker} {request : Request}
    {sink : Option Channel} (hsink : ∀ channel ∈ sink, channel.IsSteady) (eventBuffer : Nat)
    {link : Link} (hrest : link.IsAtRest worker)
    (hrequests : 0 < link.requests.capacity) (hframes : 0 < link.frames.capacity)
    {events : List RunEvent} {ending : Ending} {response : Response}
    (hcourse : ServeLoop.Course worker link.nextId request events ending response)
    (hlegible : Crossing.Legible link.nextId request.kind events response) :
    worker.call request true = ⟨events, LocalWorker.answer request.kind ending, worker⟩ ∧
      PipeWorker.call servingChild ⟨worker, [], link.nextId, false⟩ request =
        (events, some (.ok response), ⟨worker, [], link.nextId + 1, false⟩) ∧
      Returns LocalCall.Moves LocalCall.outcome? (LocalCall.start worker request eventBuffer sink)
        (LocalWorker.answer request.kind ending, heardBy sink events) ∧
      Returns Crossing.Moves Crossing.outcome? (link.call request sink)
        (.ok response, heardBy sink events) ∧
      ∀ crossing, Relation.ReflTransGen Crossing.Moves (link.call request sink) crossing →
        crossing.reply?.isSome = true →
          crossing.toLink.IsAtRest worker ∧ crossing.nextId = link.nextId + 1 := by
  have hcall := LocalWorker.call_eq hcourse.notStopped request
  have hreturns := LocalCall.returns_start
    (LocalWorker.willing_of_not_stopped hcourse.notStopped) hcourse.result
    (hcourse.events_eq ▸ hcourse.silent) eventBuffer hsink
  rw [hcourse.events_eq, hcourse.result] at hcall
  rw [hcourse.events_eq] at hreturns
  exact ⟨hcall, pipeCall_eq hcall hcourse hlegible, hreturns,
    Crossing.returns_call hrest hrequests hframes hsink hcourse hlegible⟩

end Worker

/-! ### What the engine says -/

namespace Simulation

open Program Worker

theorem Circuit.index_lt_of_mem_runFrom {σ α : Type} [Scalar α] {circuit : Circuit}
    {draw : Draw σ α} {index remaining : Nat} {source : σ} {event : RunEvent}
    (hmem : event ∈ (circuit.runFrom draw index remaining source).fullEvents) :
    event.index < index + remaining := by
  induction remaining generalizing index source with
  | zero => nomatch hmem
  | succ remaining ih =>
      rcases List.mem_cons.mp hmem with rfl | hlater
      · exact Nat.lt_add_of_pos_right (Nat.succ_pos _)
      · exact Nat.add_right_comm index 1 remaining ▸ ih hlater

theorem Circuit.fullResult_runFrom {σ α : Type} [Scalar α] (circuit : Circuit)
    (draw : Draw σ α) (index remaining : Nat) (source : σ) :
    (circuit.runFrom draw index remaining source).fullResult.1 =
      .completed (index + remaining) := by
  induction remaining generalizing index source with
  | zero => rfl
  | succ remaining ih => exact (ih (index + 1) _).trans (by rw [Nat.add_right_comm, Nat.add_assoc])

namespace StatevectorEngine

/-- A fresh worker over an engine. -/
def worker (engine : StatevectorEngine) : LocalWorker :=
  { engine := engine.toEngine }

/-- A run that can start goes through all its shots when it is wanted to the end. -/
theorem full_run (engine : StatevectorEngine) (sources : List Source) (entry : Option String)
    (shots : Nat) (profile : Profile) :
    (∃ fault, (engine.run sources entry shots profile).fullResult = .failed fault ∧
        (engine.run sources entry shots profile).fullEvents = []) ∨
      (engine.run sources entry shots profile).fullResult = .runComplete shots ∧
        ∀ event ∈ (engine.run sources entry shots profile).fullEvents, event.index < shots := by
  unfold run runWith
  cases engine.select sources profile (·.entry entry) with
  | error fault => exact .inl ⟨fault, rfl, rfl⟩
  | ok selection =>
      refine .inr ⟨?_, fun event hmem => ?_⟩
      · simp only [Dialogue.fullResult_map, Circuit.run, Circuit.fullResult_runFrom, Nat.zero_add,
          RunEnd.reply]
      · rw [Dialogue.fullEvents_map] at hmem
        simpa using Circuit.index_lt_of_mem_runFrom hmem

/-- The engine answers every request in its kind. -/
theorem answers_fullResult (engine : StatevectorEngine) (request : Request) :
    (engine.serve request).fullResult.answers request.kind = true := by
  cases request with
  | check sources profile =>
      change (engine.check sources profile).answers .check = true
      unfold check
      split <;> rfl
  | run sources entry shots profile =>
      change (engine.run sources entry shots profile).fullResult.answers .run = true
      rcases engine.full_run sources entry shots profile with ⟨fault, hfailed, -⟩ | ⟨hdone, -⟩
      · rw [hfailed]
        rfl
      · rw [hdone]
        rfl
  | circuit sources profile operation =>
      change (engine.circuit sources profile operation).answers .circuit = true
      cases operation <;> unfold circuit <;> dsimp only <;> split <;> rfl

/-- A run that breaks the engine down would ask first whether to begin. -/
theorem exists_ask_of_breaksDown {engine : StatevectorEngine} {request : Request}
    (hbreaks : engine.breaksDown request = true) : ∃ next, engine.serve request = .ask next := by
  cases request with
  | check => nomatch hbreaks
  | circuit => nomatch hbreaks
  | run sources entry shots profile =>
      cases hselect : engine.select sources profile (·.entry entry) with
      | error fault => simp [breaksDown, hselect] at hbreaks
      | ok selection =>
          obtain ⟨hshots, -⟩ : 0 < shots ∧ _ := by simpa [breaksDown, hselect] using hbreaks
          obtain ⟨remaining, rfl⟩ := Nat.exists_eq_succ_of_ne_zero hshots.ne'
          simp only [serve, serveWith, runWith, hselect]
          exact ⟨_, rfl⟩

/-- An engine that can hold as many qubits as its limit admits never breaks down. -/
theorem breaksDown_eq_false {engine : StatevectorEngine} (hlimit : engine.limits.maxQubits < 59)
    (request : Request) : engine.breaksDown request = false := by
  cases request with
  | check => rfl
  | circuit => rfl
  | run sources entry shots profile =>
      unfold breaksDown
      dsimp only
      split
      · rfl
      · rename_i program number hselect
        obtain ⟨hcompile, -, -⟩ := select_ok_iff.mp hselect
        suffices hqubits : (Circuit.ofProgram program number).qubits < 59 by
          simp [Statevector.canHold, hqubits]
        unfold Circuit.ofProgram
        cases hoperation : program.operations[number]? with
        | none => simp
        | some operation =>
            exact Nat.lt_of_le_of_lt (qubits_le_maxQubits hcompile hoperation) hlimit

/-- Only runs have events, and as many as shots at most. -/
theorem inRange_of_mem_fullEvents {engine : StatevectorEngine} {request : Request}
    (hrequest : request.InRange) {event : RunEvent}
    (hmem : event ∈ (engine.serve request).fullEvents) :
    request.kind = .run ∧ event.InRange := by
  cases request with
  | check => nomatch hmem
  | circuit => nomatch hmem
  | run sources entry shots profile =>
      refine ⟨rfl, ?_⟩
      rcases engine.full_run sources entry shots profile with ⟨_, -, hnone⟩ | ⟨-, hindex⟩
      · change event ∈ (engine.run sources entry shots profile).fullEvents at hmem
        rw [hnone] at hmem
        nomatch hmem
      · exact Nat.lt_trans (hindex event hmem) hrequest

/-- A worker over an engine that does not break down takes the engine's course. -/
theorem course [JsonWording] {engine : StatevectorEngine} {request : Request}
    (hholds : engine.breaksDown request = false) (hrequest : request.InRange) {id : Nat}
    (hid : id < UInt64.size) :
    ServeLoop.Course engine.worker id request (engine.serve request).fullEvents
      (.ok (engine.serve request).fullResult) (engine.serve request).fullResult where
  notStopped := rfl
  events_eq := by simp [worker, toEngine, hholds]
  result := by simp [worker, toEngine, hholds]
  silent := nofun
  told := by simp [LocalWorker.answer, acceptReply_eq (engine.answers_fullResult request),
    toldOutcome]
  understood := ofLine_inbound ⟨hid, hrequest⟩
  oneLine := inbound_isOneLine ⟨hid, hrequest⟩

/-- A worker over an engine that breaks down has no events, and its crash is told. -/
theorem course_of_breaksDown [JsonWording] {engine : StatevectorEngine} {request : Request}
    (hbreaks : engine.breaksDown request = true) (hrequest : request.InRange) {id : Nat}
    (hid : id < UInt64.size) :
    ServeLoop.Course engine.worker id request [] (.error engine.breakdown)
      (runtimeFault (.crashed engine.breakdown)) := by
  obtain ⟨next, hserve⟩ := exists_ask_of_breaksDown hbreaks
  have hengine : engine.worker.engine.serve request =
      .ask fun wanted =>
        if wanted then .done (.error engine.breakdown)
        else (next false).failing engine.breakdown := by
    simp [worker, toEngine, hbreaks, hserve, Dialogue.failing]
  exact {
    notStopped := rfl
    events_eq := by rw [hengine]; rfl
    result := by rw [hengine]; rfl
    silent := fun _ _ => rfl
    told := rfl
    understood := ofLine_inbound ⟨hid, hrequest⟩
    oneLine := inbound_isOneLine ⟨hid, hrequest⟩ }

/-- The host understands all that a worker over an engine tells it, as far as the reply does not
nest too deep. -/
theorem legible [JsonWording] {engine : StatevectorEngine} {request : Request}
    (hrequest : request.InRange) {id : Nat} (hid : id < UInt64.size)
    (hrange : (Outbound.reply id (engine.serve request).fullResult).InRange)
    (hdepth : (Outbound.reply id (engine.serve request).fullResult).toJson.depth < 128) :
    Crossing.Legible id request.kind (engine.serve request).fullEvents
      (engine.serve request).fullResult := by
  refine ⟨fun event hmem => ?_, outbound_isOneLine hrange,
    verdict_reply hrange hdepth (engine.answers_fullResult request)⟩
  obtain ⟨hkind, hevent⟩ := inRange_of_mem_fullEvents hrequest hmem
  have hframe : (Outbound.event id event).InRange := ⟨hid, hevent⟩
  exact ⟨outbound_isOneLine hframe, hkind ▸ verdict_event hid hevent⟩

/-- The host understands that a worker crashed. -/
theorem legible_crash [JsonWording] {id : Nat} (hid : id < UInt64.size) (kind : RequestKind)
    (reason : String) : Crossing.Legible id kind [] (runtimeFault (.crashed reason)) := by
  have hrange : (Outbound.reply id (runtimeFault (.crashed reason))).InRange :=
    ⟨hid, fun _ hnone => nomatch hnone⟩
  refine ⟨nofun, outbound_isOneLine hrange, verdict_reply hrange ?_ ?_⟩
  · simp [runtimeFault, Outbound.toJson, Response.toJson, WorkerFault.toJson, Nat.lt_succ_iff]
  · rfl

/-- Three shots of an operation that calls another. -/
def nestedCallRun : Request :=
  .run [nestedCall] (some "A") 3 .unrestricted

/-- A link to a fresh worker, with room for one character in each direction. -/
def narrowLink : Link :=
  { requests := { capacity := 1 }, frames := { capacity := 1 }
    child := { worker := ({} : StatevectorEngine).worker } }

theorem narrowSink_isSteady : ∀ channel ∈ some ({ capacity := 1 } : Channel), channel.IsSteady := by
  rintro channel ⟨⟩
  exact ⟨rfl, by decide, by decide⟩

theorem selectRun_nestedCall :
    ({} : StatevectorEngine).select [nestedCall] .unrestricted (·.entry (some "A")) =
      .ok ⟨nestedCallProgram, 0⟩ :=
  select_ok_iff.mpr ⟨compile_nestedCall, rfl, rfl⟩

theorem fullResult_nestedCallRun :
    (({} : StatevectorEngine).serve nestedCallRun).fullResult = .runComplete 3 := by
  change (({} : StatevectorEngine).run _ _ _ _).fullResult = _
  rw [run, runWith, selectRun_nestedCall]
  simp only [Dialogue.fullResult_map, Circuit.run, Circuit.fullResult_runFrom, Nat.zero_add,
    RunEnd.reply]

theorem reply_nestedCallRun :
    (({} : StatevectorEngine).worker.call nestedCallRun true).reply = .ok (.runComplete 3) := by
  have hholds : ({} : StatevectorEngine).breaksDown nestedCallRun = false :=
    breaksDown_eq_false (by decide) _
  rw [LocalWorker.call_eq rfl]
  simp only [worker, toEngine, hholds, Bool.false_eq_true, if_false, Dialogue.fullResult_map,
    fullResult_nestedCallRun]
  rfl

local instance plainWording : JsonWording := .always "expected value at line 1 column 1"

/-- An engine that admits operations of sixty qubits. -/
def wideEngine : StatevectorEngine where
  limits := { maxQubits := 60 }
  breakdown := "task 2 panicked with message \"capacity overflow\""

/-- A measurement of the last of sixty qubits. -/
def wideSource : Source :=
  ⟨"main.qb", "@entry operation A { measure 59; }"⟩

/-- What it parses into. -/
def wideFile : Syntax.SourceFile :=
  ⟨"main.qb", none, [⟨"A", true, 1, [⟨.measure 59, 1⟩]⟩]⟩

/-- What it compiles to. -/
def wideProgram : Program :=
  ⟨#[⟨⟨⟨none, "A"⟩, true, ⟨"main.qb", 1⟩, [⟨.perform (.measure 59), 1⟩]⟩, ⟨[59], 1, 0⟩⟩]⟩

/-- One shot of it. -/
def wideRun : Request :=
  .run [wideSource] none 1 .unrestricted

/-- A link to a fresh worker over that engine. -/
def wideLink : Link :=
  { narrowLink with child := { worker := wideEngine.worker } }

theorem compile_wideSource : compile [wideSource] wideEngine.limits = .ok wideProgram := by
  have hparse : parse wideSource = .ok wideFile := by
    decide +kernel
  have hfile : compileFiles [wideFile] wideEngine.limits = .ok wideProgram := by
    cbv
  exact compile_ok_iff_compileFiles.mpr ⟨_, .cons hparse .nil, hfile⟩

theorem breaksDown_wideRun : wideEngine.breaksDown wideRun = true := by
  have hselect : wideEngine.select [wideSource] .unrestricted (·.entry none) =
      .ok ⟨wideProgram, 0⟩ := select_ok_iff.mpr ⟨compile_wideSource, rfl, rfl⟩
  simp [breaksDown, wideRun, hselect, Statevector.canHold, Circuit.ofProgram, wideProgram,
    Figures.qubits]

end StatevectorEngine

end Simulation

end GateBench
