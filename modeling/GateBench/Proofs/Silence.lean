import GateBench.Proofs.PipeSessions
import GateBench.Proofs.Reuse

/-!
Silence after an issue.  Whenever the reply comes, an error or the deadline, and however the engine
or the child comes to turn: events reach the sink of a request in the order in which they were told,
and none reaches it once the issue is over, although the engine may tell and the child may write
more.
-/

namespace GateBench.Worker

open Message

/-! ### Calls of local workers -/

namespace LocalCall

variable {call next : LocalCall}

/-- Where the events of a call are, however the sides come to turn: those that were heard went into
the buffer, and the engine tells no other until the buffer is closed; what has reached the sink is
the front of what was taken out of the buffer, and while somebody listens, all of it but the event
in the worker's hands. -/
structure InOrder (call : LocalCall) : Prop where
  taken_le : call.buffer.taken ≤ call.buffer.sent.length
  told : ∃ unheard : List RunEvent,
    call.told = call.buffer.sent.map (·, true) ++ unheard.map (·, false) ∧
      (call.buffer.isOpen = true → unheard = [])
  delivered : call.delivered <+: call.buffer.sent.take call.buffer.taken
  passedOn : call.isUnderWay = true → ∀ sink ∈ call.sink, sink.isOpen = true →
    sink.sent ++ call.held.toList = call.buffer.sent.take call.buffer.taken
  ended : call.isUnderWay = false → call.held = none ∧ call.buffer.isOpen = false

theorem inOrder_start (worker : LocalWorker) (request : Request) (eventBuffer : Nat)
    (reception : Reception) :
    (start worker request eventBuffer reception.channel?).InOrder where
  taken_le := Nat.le_refl _
  told := ⟨[], rfl, fun _ => rfl⟩
  delivered := by cases reception <;> simp [start, LocalCall.delivered, Reception.channel?]
  passedOn _ sink hsink _ := by
    simp [start, Reception.sent_of_channel? sink hsink]
  ended := nofun

namespace InOrder

/-- What the engine has told begins with what has reached the sink. -/
theorem delivered_told (hcall : call.InOrder) :
    call.delivered <+: call.told.map Prod.fst := by
  obtain ⟨unheard, htold, -⟩ := hcall.told
  have hevents : call.told.map Prod.fst = call.buffer.sent ++ unheard := by
    simp [htold, Function.comp_def]
  rw [hevents]
  exact (hcall.delivered.trans (List.take_prefix _ _)).trans (List.prefix_append _ _)

theorem enter (hcall : call.InOrder) {phase : CallPhase}
    (hover : (call.enter phase).isUnderWay = false) : (call.enter phase).InOrder where
  taken_le := hcall.taken_le
  told := by
    obtain ⟨unheard, htold, -⟩ := hcall.told
    exact ⟨unheard, htold, nofun⟩
  delivered := hcall.delivered
  passedOn hunderWay := by simp [hover] at hunderWay
  ended _ := ⟨rfl, rfl⟩

theorem work (hcall : call.InOrder) (hwork : call.work = some next) : next.InOrder := by
  obtain ⟨unheard, htold, hheard⟩ := hcall.told
  rcases work_cases hwork with ⟨further, -, rfl⟩ | ⟨event, further, -, hclosed, rfl⟩ |
    ⟨event, further, -, hopen, -, rfl⟩
  · exact { hcall with }
  · refine { hcall with told := ⟨unheard ++ [event], ?_, fun hopen => ?_⟩ }
    · simp [hear, htold]
    · exact absurd hopen (by simp [hear, hclosed])
  · have hsent : (call.buffer.sent ++ [event]).take call.buffer.taken =
        call.buffer.sent.take call.buffer.taken :=
      List.take_append_of_le_length hcall.taken_le
    exact {
      taken_le := by simpa [Channel.send] using Nat.le_succ_of_le hcall.taken_le
      told := ⟨[], by simp [hear, Channel.send, htold, hheard hopen], fun _ => rfl⟩
      delivered := hsent ▸ hcall.delivered
      passedOn := hsent ▸ hcall.passedOn
      ended := fun hover => absurd hopen (by simp [(hcall.ended hover).2]) }

theorem forward (hcall : call.InOrder) (hforward : call.forward = some next) :
    next.InOrder := by
  obtain ⟨event, others, hheld, hwaiting, hunderWay, rfl⟩ := forward_cases hforward
  have htaken := Channel.sent_take_succ hwaiting
  refine { hcall with
    taken_le := Channel.taken_lt hwaiting
    delivered := ?_
    passedOn := fun _ sink hsink hopen => ?_
    ended := fun hover => Bool.noConfusion (hunderWay.symm.trans hover) }
  · simp only [Channel.take, htaken]
    exact hcall.delivered.trans (List.prefix_append _ _)
  · have hpassed := hcall.passedOn hunderWay sink hsink hopen
    rw [hheld, Option.toList_none, List.append_nil] at hpassed
    simp [Channel.take, htaken, hpassed]

/-- A call that holds an event is under way. -/
theorem isUnderWay_of_held (hcall : call.InOrder) {event : RunEvent}
    (hheld : call.held = some event) : call.isUnderWay = true := by
  by_contra hover
  simp [(hcall.ended (by simpa using hover)).1] at hheld

theorem deliver (hcall : call.InOrder) (hdeliver : call.deliver = some next) :
    next.InOrder := by
  obtain ⟨event, hheld, hnext⟩ := deliver_cases hdeliver
  have hunderWay := hcall.isUnderWay_of_held hheld
  rcases hnext with ⟨hsink, rfl⟩ | ⟨sink, hsink, ⟨hclosed, rfl⟩ | ⟨hopen, -, rfl⟩⟩
  · exact { hcall with
      passedOn := by simp [hsink]
      ended := fun hover => Bool.noConfusion (hunderWay.symm.trans hover) }
  · unfold giveUp
    split
    · exact hcall.enter rfl
    · exact { hcall with
        passedOn := by simp [hsink, hclosed]
        ended := fun hover => Bool.noConfusion (hunderWay.symm.trans hover) }
  · have hpassed := hcall.passedOn hunderWay sink hsink hopen
    rw [hheld, Option.toList_some] at hpassed
    exact { hcall with
      delivered := by simp [LocalCall.delivered, Channel.send, hpassed]
      passedOn := by simp [Channel.send, hpassed]
      ended := fun hover => Bool.noConfusion (hunderWay.symm.trans hover) }

theorem join (hcall : call.InOrder) (hjoin : call.join = some next) : next.InOrder := by
  obtain ⟨hphase, hheld, ⟨response, -, rfl⟩ | ⟨reason, -, rfl⟩⟩ := join_cases hjoin
  · exact { hcall with
      passedOn := fun _ => hcall.passedOn (by simp [isUnderWay, hphase])
      ended := nofun }
  · exact hcall.enter rfl

theorem receive (hcall : call.InOrder) (hreceive : call.receive = some next) :
    next.InOrder := by
  obtain ⟨later, hlater, rfl⟩ := Option.map_eq_some_iff.mp hreceive
  have hsame : { call with sink := some later }.delivered = call.delivered :=
    Channel.reached_of_receive hlater
  refine { hcall with delivered := hsame.symm ▸ hcall.delivered, passedOn := ?_ }
  obtain ⟨sink, event, others, hsink, -, -, rfl⟩ := Channel.receive_cases hlater
  rintro hunderWay _ ⟨⟩
  exact hcall.passedOn hunderWay sink hsink

theorem close (hcall : call.InOrder) :
    { call with sink := call.sink.map Channel.close }.InOrder := by
  have hsame : { call with sink := call.sink.map Channel.close }.delivered = call.delivered :=
    Channel.reached_close call.sink
  refine { hcall with
    delivered := hsame.symm ▸ hcall.delivered
    passedOn := fun _ closed hclosed hopen => ?_ }
  obtain ⟨sink, -, rfl⟩ := Option.map_eq_some_iff.mp hclosed
  nomatch hopen

/-- Every move of any side keeps the order. -/
theorem step (hcall : call.InOrder) {move : Move} (hstep : call.step move = some next) :
    next.InOrder := by
  cases move with
  | work => exact hcall.work hstep
  | forward => exact hcall.forward hstep
  | deliver => exact hcall.deliver hstep
  | join => exact hcall.join hstep
  | finish =>
      obtain ⟨response, -, -, -, rfl⟩ := finish_cases hstep
      exact hcall.enter rfl
  | receive => exact hcall.receive hstep
  | close => exact Option.some.inj hstep ▸ hcall.close
  | drop =>
      obtain ⟨-, hnext⟩ := Option.ite_none_right_eq_some.mp hstep
      exact Option.some.inj hnext ▸ hcall.enter rfl
  | stop =>
      obtain ⟨-, hnext⟩ := Option.ite_none_left_eq_some.mp hstep
      exact Option.some.inj hnext ▸ { hcall with }

theorem run (hcall : call.InOrder) (schedule : List Move) : (call.run schedule).InOrder :=
  invariant_of_moves InOrder (fun hcall hstep => hcall.step hstep) hcall schedule

end InOrder

/-- What became of a call `before` in silence: it is over, nothing more has reached the sink, and
what the engine has told since was not heard. -/
structure Silent (before call : LocalCall) : Prop where
  inOrder : call.InOrder
  ended : call.isUnderWay = false
  delivered : call.delivered = before.delivered
  told : ∃ unheard : List RunEvent, call.told = before.told ++ unheard.map (·, false)
  cancelled : before.cancelled = true → call.cancelled = true

namespace Silent

variable {before : LocalCall}

theorem refl (hcall : call.InOrder) (hover : call.isUnderWay = false) : call.Silent call where
  inOrder := hcall
  ended := hover
  delivered := rfl
  told := ⟨[], by simp⟩
  cancelled hcancelled := hcancelled

/-- Every move of any side keeps the silence. -/
theorem step (hcall : before.Silent call) {move : Move} (hstep : call.step move = some next) :
    before.Silent next := by
  obtain ⟨hheld, hclosed⟩ := hcall.inOrder.ended hcall.ended
  have hnext := hcall.inOrder.step hstep
  cases move with
  | work =>
      rcases work_cases hstep with ⟨further, -, rfl⟩ | ⟨event, further, -, -, rfl⟩ |
        ⟨event, further, -, hopen, -, rfl⟩
      · exact { hcall with inOrder := hnext }
      · obtain ⟨unheard, htold⟩ := hcall.told
        exact { hcall with
          inOrder := hnext
          told := ⟨unheard ++ [event], by simp [hear, htold]⟩ }
      · simp [hclosed] at hopen
  | forward =>
      obtain ⟨event, others, -, -, hunderWay, -⟩ := forward_cases hstep
      simp [hcall.ended] at hunderWay
  | deliver =>
      obtain ⟨event, hholds, -⟩ := deliver_cases hstep
      simp [hheld] at hholds
  | join =>
      obtain ⟨hphase, -⟩ := join_cases hstep
      simpa [isUnderWay, hphase] using hcall.ended
  | finish =>
      obtain ⟨response, hphase, -⟩ := finish_cases hstep
      simpa [isUnderWay, hphase] using hcall.ended
  | receive =>
      obtain ⟨later, hlater, rfl⟩ := Option.map_eq_some_iff.mp hstep
      exact { hcall with
        inOrder := hnext
        delivered := (Channel.reached_of_receive hlater).trans hcall.delivered }
  | close =>
      obtain rfl := Option.some.inj hstep
      exact { hcall with
        inOrder := hnext
        delivered := (Channel.reached_close call.sink).trans hcall.delivered }
  | drop =>
      obtain ⟨hunderWay, -⟩ := Option.ite_none_right_eq_some.mp hstep
      simp [hcall.ended] at hunderWay
  | stop =>
      obtain ⟨-, hsome⟩ := Option.ite_none_left_eq_some.mp hstep
      obtain rfl := Option.some.inj hsome
      exact { hcall with inOrder := hnext, cancelled := fun _ => rfl }

theorem run (hcall : before.Silent call) (later : List Move) : before.Silent (call.run later) :=
  invariant_of_moves before.Silent (fun hcall hstep => hcall.step hstep) hcall later

end Silent

/-- What an issue leaves a call as: one that has returned as it is; any other was dropped, and after
some moves of the engine its worker was stopped, as the deadline wants it. -/
def left (call : LocalCall) (between : List Move) : LocalCall :=
  if call.returned?.isSome then call else call.run (.drop :: between ++ [.stop])

/-- A drop leaves a call in silence, whether or not there was something to drop. -/
theorem InOrder.silent_drop (hcall : call.InOrder) : call.Silent (call.run [.drop]) := by
  cases hunderWay : call.isUnderWay with
  | true =>
      have hdropped : call.run [.drop] = call.enter .dropped := by
        simp [LocalCall.run, LocalCall.step, LocalCall.drop, hunderWay]
      rw [hdropped]
      exact ⟨hcall.enter rfl, rfl, rfl, ⟨[], by simp [LocalCall.enter]⟩,
        fun hcancelled => hcancelled⟩
  | false => exact (Silent.refl hcall hunderWay).run [.drop]

theorem run_drop_stop (call : LocalCall) (between : List Move) :
    call.run (.drop :: between ++ [.stop]) =
      ((call.run [.drop]).run between).run [.stop] := by
  simp [LocalCall.run]

/-- An issue leaves its call in silence. -/
theorem InOrder.silent_left (hcall : call.InOrder) (between : List Move) :
    call.Silent (call.left between) := by
  unfold left
  split_ifs with hreturned
  · refine .refl hcall ?_
    cases hphase : call.phase with
    | returned reply => simp [isUnderWay, hphase]
    | forwarding | draining response | dropped => simp [returned?, hphase] at hreturned
  · rw [run_drop_stop]
    exact (hcall.silent_drop.run between).run [.stop]

theorem cancelled_stop (hover : call.isUnderWay = false) :
    (call.run [.stop]).cancelled = true := by
  simp [LocalCall.run, LocalCall.step, LocalCall.stop, hover]

/-- At a deadline the engine is told to stop, and for good. -/
theorem InOrder.left_cancelled (hcall : call.InOrder) (hreturned : call.returned? = none)
    (between later : List Move) : ((call.left between).run later).cancelled = true := by
  have hsilent := hcall.silent_left between
  refine ((Silent.refl hsilent.inOrder hsilent.ended).run later).cancelled ?_
  simp only [left, hreturned, Option.isSome_none, Bool.false_eq_true, if_false, run_drop_stop]
  exact cancelled_stop (hcall.silent_drop.run between).ended

end LocalCall

/-! ### Calls over pipes -/

namespace PipeCall

variable {call next : PipeCall}

/-- What became of a call `before` in silence: it is over, and nothing more has reached the sink. -/
structure Silent (before call : PipeCall) : Prop where
  ended : call.isUnderWay = false
  held : call.held = none
  delivered : call.delivered = before.delivered

namespace Silent

variable {before : PipeCall}

/-- Every move of any side keeps the silence. -/
theorem step [JsonWording] (hcall : before.Silent call) {move : PipeMove}
    (hstep : call.step move = some next) : before.Silent next := by
  have hover := hcall.ended
  cases move with
  | write line =>
      obtain ⟨-, rfl⟩ := write_cases hstep
      exact { hcall with }
  | endOutput => exact Option.some.inj hstep ▸ { hcall with }
  | send =>
      obtain ⟨hphase, -⟩ := send_cases hstep
      simp [isUnderWay, hphase] at hover
  | refuse reason =>
      obtain ⟨hphase, -⟩ := refuse_cases hstep
      simp [isUnderWay, hphase] at hover
  | read =>
      obtain ⟨line, others, hphase, -⟩ := read_cases hstep
      simp [isUnderWay, hphase] at hover
  | disconnect =>
      obtain ⟨hphase, -⟩ := disconnect_cases hstep
      simp [isUnderWay, hphase] at hover
  | deliver =>
      obtain ⟨event, hheld, -⟩ := deliver_cases hstep
      simp [hcall.held] at hheld
  | receive =>
      obtain ⟨later, hlater, rfl⟩ := Option.map_eq_some_iff.mp hstep
      exact { hcall with delivered := (Channel.reached_of_receive hlater).trans hcall.delivered }
  | close =>
      obtain rfl := Option.some.inj hstep
      exact { hcall with delivered := (Channel.reached_close call.sink).trans hcall.delivered }
  | drop =>
      obtain ⟨hunderWay, -⟩ := drop_cases hstep
      simp [hover] at hunderWay

theorem run [JsonWording] (hcall : before.Silent call) (later : List PipeMove) :
    before.Silent (call.run later) :=
  invariant_of_moves before.Silent (fun hcall hstep => hcall.step hstep) hcall later

end Silent

/-- What an issue leaves a call as: one that has returned as it is, any other dropped. -/
def left [JsonWording] (call : PipeCall) : PipeCall :=
  if call.returned?.isSome then call else call.run [.drop]

/-- An issue leaves its call in silence. -/
theorem silent_left [JsonWording] (hover : call.isUnderWay = false → call.held = none) :
    call.Silent call.left := by
  unfold left
  cases hunderWay : call.isUnderWay with
  | false =>
      have hsilent : call.Silent call := ⟨hunderWay, hover hunderWay, rfl⟩
      split_ifs
      · exact hsilent
      · exact hsilent.run [.drop]
  | true =>
      have hreturned : call.returned? = none := by
        cases hphase : call.phase <;> simp_all [isUnderWay, returned?]
      have hdropped : call.run [.drop] = { call with held := none, phase := .dropped } := by
        simp [PipeCall.run, PipeCall.step, PipeCall.drop, hunderWay]
      simp only [hreturned, Option.isSome_none, Bool.false_eq_true, if_false, hdropped]
      exact ⟨rfl, rfl, rfl⟩

/-- What has reached the sink is the front of the events that the child wrote for the request. -/
theorem HasRead.delivered_eventsOf [JsonWording] {before : PipeHost} {request : Request}
    {passed : List Line} {last : Option Line}
    (hread : call.HasRead before request passed last) :
    call.delivered <+: eventsOf before.nextId (call.found before) := by
  have hhanded : call.handed <+: eventsOf before.nextId (call.found before) := by
    have hpassed := (List.prefix_append _ _).trans hread.handed
    rw [hread.found_eq, List.append_assoc, eventsOf_append, ← hread.id_eq]
    exact hpassed.trans (List.prefix_append _ _)
  cases hsink : call.sink with
  | none => simp [delivered, hsink]
  | some sink =>
      simp only [delivered, hsink, Channel.reached_some]
      exact (hread.sink sink hsink).1.trans hhanded

/-- What the caller sees of a call, whose time runs out if it has not come to an end. -/
def seen (call : PipeCall) (patience : Patience) : Call :=
  ⟨call.delivered.map .delivered, call.returned?.elim patience.expiry CallEnd.ofOutcome⟩

end PipeCall

/-- Workers behind pipes whose calls follow schedules, each the next of a list. -/
def scheduledPipes [JsonWording] : Transport PipeHost (List (List PipeMove)) where
  spawn schedules := (.ok {}, schedules)
  call request reception patience host schedules :=
    if host.terminated then (⟨[], .failed .terminated⟩, host, schedules)
    else
      let call := (host.call request reception.channel?).run (schedules.headD [])
      (call.seen patience, call.toPipeHost, schedules.tail)
  terminate host schedules := ({ host with terminated := true }, schedules)
  kill host schedules := ({ host with terminated := true }, schedules)

/-! ### Issues -/

section Issue

variable {ν ω : Type} {transport : Transport ν ω} {handle : Handle ν} {request : Request}
  {reception : Reception} {surroundings : ω}

/-- An issue tells what happened during its call. -/
theorem Handle.issue_happenings (haccepts : handle.state.accepts = true) {call : Call} {worker : ν}
    {later : ω} (hcall : transport.call request reception ⟨handle.timeout, none⟩ handle.worker
      surroundings = (call, worker, later)) :
    (handle.issue transport request reception none surroundings).1.happenings =
      call.happenings := by
  rw [Handle.issue_of_accepts haccepts hcall]

theorem Handle.happenings_of_refusal (hrefuses : handle.state.accepts = false) :
    (handle.issue transport request reception none surroundings).1.happenings = [] := by
  cases hrefusal : handle.state.refusal? with
  | some error =>
      rw [Handle.issue_of_refusal hrefusal]
      rfl
  | none => simp [HandleState.refusal?_eq_none_iff.mp hrefusal] at hrefuses

/-- At the deadline the worker is told to terminate, and the issue says so. -/
theorem Handle.issue_of_deadline (haccepts : handle.state.accepts = true) {call : Call}
    {worker : ν} {later : ω} (hcall : transport.call request reception ⟨handle.timeout, none⟩
      handle.worker surroundings = (call, worker, later)) (hdeadline : call.ending = .deadline) :
    let (issued, after, _) := handle.issue transport request reception none surroundings
    issued.outcome = some (.error (.timeout handle.timeout)) ∧
      after.worker = (transport.terminate worker later).1 := by
  rw [Handle.issue_of_accepts haccepts hcall, hdeadline]
  exact ⟨rfl, rfl⟩

end Issue

/-- What is to be said of an issue on a handle with a timeout whose request became a call of a local
worker, and of the worker afterwards. -/
structure LocalCall.IsSilenced (call : LocalCall) (timeout : Nat) (issued : Issued)
    (worker : LocalWorker) : Prop where
  /-- What reaches the sink reaches it during the issue. -/
  happenings : issued.happenings = call.delivered.map .delivered
  /-- What has reached the sink is the front of what the engine has told. -/
  inOrder : call.delivered <+: call.told.map Prod.fst
  /-- Nothing reaches the sink afterwards, whatever the sides do. -/
  silent : ∀ between later, ((call.left between).run later).delivered = call.delivered
  /-- No event is heard that the engine tells afterwards. -/
  unheard : ∀ between later, ∃ unheard : List RunEvent,
    ((call.left between).run later).told = call.told ++ unheard.map (·, false)
  /-- If the call has not returned, the deadline has come, and the engine is told to stop. -/
  deadline : call.returned? = none →
    issued.outcome = some (.error (.timeout timeout)) ∧ worker.cancelled = true ∧
      ∀ between later, ((call.left between).run later).cancelled = true

/-- What is to be said of an issue on a handle with a timeout whose request became a call over pipes
on a host found as `before`, and of the host afterwards. -/
structure PipeCall.IsSilenced [JsonWording] (before : PipeHost) (call : PipeCall) (timeout : Nat)
    (issued : Issued) (host : PipeHost) : Prop where
  /-- What reaches the sink reaches it during the issue. -/
  happenings : issued.happenings = call.delivered.map .delivered
  /-- What has reached the sink is the front of the events that the child has written for the
  request, from where the call before has stopped to read. -/
  inOrder : call.delivered <+: eventsOf before.nextId (call.found before)
  /-- Nothing reaches the sink afterwards, whatever the sides do. -/
  silent : ∀ later, (call.left.run later).delivered = call.delivered
  /-- If the call has not come to an end, the deadline has come, and the child is stopped. -/
  deadline : call.returned? = none →
    issued.outcome = some (.error (.timeout timeout)) ∧ host.terminated = true

theorem Handle.issue_scheduledWorkers (engine : Engine) (eventBuffer : Nat)
    {handle : Handle LocalWorker} (haccepts : handle.state.accepts = true)
    (hwilling : handle.worker.isStopped = false) (request : Request) (reception : Reception)
    (schedule : List Move) (others : List (List Move)) :
    let call := (LocalCall.start handle.worker request eventBuffer reception.channel?).run schedule
    let (issued, after, _) := handle.issue (scheduledWorkers engine eventBuffer) request reception
      none (schedule :: others)
    call.IsSilenced handle.timeout issued after.worker := by
  intro call
  have hcall : (scheduledWorkers engine eventBuffer).call request reception ⟨handle.timeout, none⟩
      handle.worker (schedule :: others) =
      (call.seen ⟨handle.timeout, none⟩, { handle.worker with cancelled := call.cancelled },
        others) := by
    simp [scheduledWorkers, hwilling, call]
  have hinOrder : call.InOrder :=
    (LocalCall.inOrder_start handle.worker request eventBuffer reception).run schedule
  exact {
    happenings := Handle.issue_happenings haccepts hcall
    inOrder := hinOrder.delivered_told
    silent := fun between later => ((hinOrder.silent_left between).run later).delivered
    unheard := fun between later => ((hinOrder.silent_left between).run later).told
    deadline := fun hreturned => by
      obtain ⟨houtcome, hworker⟩ := Handle.issue_of_deadline haccepts hcall
        (by simp [LocalCall.seen, hreturned, Patience.expiry])
      exact ⟨houtcome, by rw [hworker]; rfl, hinOrder.left_cancelled hreturned⟩ }

theorem Handle.issue_scheduledPipes [JsonWording] {handle : Handle PipeHost}
    (haccepts : handle.state.accepts = true) (hwilling : handle.worker.terminated = false)
    (request : Request) (reception : Reception) (schedule : List PipeMove)
    (others : List (List PipeMove)) :
    let call := (handle.worker.call request reception.channel?).run schedule
    let (issued, after, _) := handle.issue scheduledPipes request reception none
      (schedule :: others)
    call.IsSilenced handle.worker handle.timeout issued after.worker := by
  intro call
  have hcall : scheduledPipes.call request reception ⟨handle.timeout, none⟩ handle.worker
      (schedule :: others) = (call.seen ⟨handle.timeout, none⟩, call.toPipeHost, others) := by
    simp [scheduledPipes, hwilling, call]
  obtain ⟨passed, last, hread⟩ : ∃ passed last, call.HasRead handle.worker request passed last :=
    (PipeCall.hasRead_call _ request Reception.sent_of_channel?).run schedule
  exact {
    happenings := Handle.issue_happenings haccepts hcall
    inOrder := hread.delivered_eventsOf
    silent := fun later => ((PipeCall.silent_left hread.ended).run later).delivered
    deadline := fun hreturned => by
      obtain ⟨houtcome, hworker⟩ := Handle.issue_of_deadline haccepts hcall
        (by simp [PipeCall.seen, hreturned, Patience.expiry])
      exact ⟨houtcome, by rw [hworker]; rfl⟩ }

/-- Once an issue is over, its request is silent, within the host and over pipes, whatever the
request, the timeout and the reception, and however the sides come to turn before and afterwards.  A
request that is refused is silent from the start. -/
theorem Handle.issue_isSilenced [JsonWording] (request : Request) (reception : Reception) :
    (∀ (engine : Engine) (eventBuffer : Nat) (handle : Handle LocalWorker) (schedule : List Move)
        (others : List (List Move)),
      let call :=
        (LocalCall.start handle.worker request eventBuffer reception.channel?).run schedule
      let (issued, after, _) := handle.issue (scheduledWorkers engine eventBuffer) request
        reception none (schedule :: others)
      if handle.state.accepts && !handle.worker.isStopped then
        call.IsSilenced handle.timeout issued after.worker
      else issued.happenings = []) ∧
    ∀ (handle : Handle PipeHost) (schedule : List PipeMove) (others : List (List PipeMove)),
      let call := (handle.worker.call request reception.channel?).run schedule
      let (issued, after, _) := handle.issue scheduledPipes request reception none
        (schedule :: others)
      if handle.state.accepts && !handle.worker.terminated then
        call.IsSilenced handle.worker handle.timeout issued after.worker
      else issued.happenings = [] := by
  refine ⟨fun engine eventBuffer handle schedule others => ?_, fun handle schedule others => ?_⟩
  · cases haccepts : handle.state.accepts with
    | false => exact Handle.happenings_of_refusal haccepts
    | true =>
        cases hwilling : handle.worker.isStopped with
        | false =>
            exact Handle.issue_scheduledWorkers engine eventBuffer haccepts hwilling request
              reception schedule others
        | true =>
            have hcall : (scheduledWorkers engine eventBuffer).call request reception
                ⟨handle.timeout, none⟩ handle.worker (schedule :: others) =
                (⟨[], .failed .terminated⟩, handle.worker, schedule :: others) := by
              simp [scheduledWorkers, hwilling]
            exact Handle.issue_happenings haccepts hcall
  · cases haccepts : handle.state.accepts with
    | false => exact Handle.happenings_of_refusal haccepts
    | true =>
        cases hwilling : handle.worker.terminated with
        | false =>
            exact Handle.issue_scheduledPipes haccepts hwilling request reception schedule others
        | true =>
            have hcall : scheduledPipes.call request reception ⟨handle.timeout, none⟩
                handle.worker (schedule :: others) =
                (⟨[], .failed .terminated⟩, handle.worker, schedule :: others) := by
              simp [scheduledPipes, hwilling]
            exact Handle.issue_happenings haccepts hcall

-- the deadline comes while the worker holds the event that it has taken from the buffer
example :
    let call := (LocalCall.ofOneEvent ⟨"0", 0⟩).run [.work, .forward]
    call.held = some ⟨"0", 0⟩ ∧
      ((call.left []).run [.deliver, .forward, .deliver]).delivered = [] := by
  decide

end GateBench.Worker
