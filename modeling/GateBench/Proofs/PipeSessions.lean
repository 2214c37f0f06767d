import GateBench.Proofs.Interchange
import GateBench.Proofs.PipeCalls

/-!
Sessions over pipes: one call after another on the same host, while the child writes what it likes.
A call reads up to the line that decides it and leaves the rest to the next call; whatever was
written for another request, or at the wrong time, is never taken for its reply.
-/

namespace GateBench.Worker

open Message

theorem Reception.sent_of_channel? {reception : Reception} :
    ∀ sink ∈ reception.channel?, sink.sent = [] := by
  cases reception <;> simp [Reception.channel?]

section Sessions

variable [JsonWording]

/-! ### The reader on all lines at once -/

section Reader

variable {id : Nat} {kind : RequestKind}

theorem readReply_line (line : Line) (rest : List Line) :
    readReply id kind (line :: rest) =
      match judgement id kind line with
      | .passedOver => readReply id kind rest
      | .event event =>
        let reading := readReply id kind rest
        { reading with events := event :: reading.events }
      | .decided outcome => .decided outcome rest := by
  cases line with
  | error fault => rfl
  | ok text => exact readReply_cons id kind text rest

/-- The reader passes over the lines that leave the call open, and keeps their events. -/
theorem readReply_append {passed : List Line} (hopen : ∀ line ∈ passed, LeavesOpen id kind line)
    (rest : List Line) :
    readReply id kind (passed ++ rest) =
      let reading := readReply id kind rest
      { reading with events := eventsOf id passed ++ reading.events } := by
  induction passed with
  | nil => rfl
  | cons line others ih =>
      have hothers := ih fun other hother => hopen other (List.mem_cons_of_mem _ hother)
      rw [List.cons_append, readReply_line, hothers]
      cases hjudged : judgement id kind line with
      | passedOver => simp [eventsOf, (LeavesOpen.of_passedOver hjudged).2]
      | event event => simp [eventsOf, (LeavesOpen.of_event hjudged).2]
      | decided outcome =>
          exact absurd (hopen line (List.mem_cons_self ..)) (not_leavesOpen_of_decided hjudged).1

/-- A call that has returned, in whatever order the sides moved, has made of all lines what the
reader makes of them at once. -/
theorem PipeCall.HasRead.readReply_eq {call : PipeCall} {before : PipeHost} {request : Request}
    {passed : List Line} {last : Option Line} (hread : call.HasRead before request passed last)
    {reply : Except WorkerError Response} (hreturned : call.phase = .returned reply) :
    let reading := readReply before.nextId request.kind (call.found before)
    reading.events = call.handed ∧ reading.rest = call.unread ∧
      reading.outcome.getD (.error .disconnected) = reply ∧
      (reading.outcome = none → call.hasEnded = true) := by
  obtain ⟨-, hlast⟩ : call.sent = _ ∧ _ := by
    simpa only [PipeCall.PhaseFits, hreturned] using hread.phase
  have hheld := hread.ended (by simp [PipeCall.isUnderWay, hreturned])
  have hhanded := hread.allHanded (by simp [hreturned])
  rw [hheld, Option.toList_none, List.append_nil] at hhanded
  dsimp only
  rw [hread.found_eq, List.append_assoc, ← hread.id_eq, readReply_append hread.leavesOpen, hhanded]
  cases last with
  | some line =>
      rw [Option.toList_some, List.singleton_append, readReply_line, ← hread.request_eq]
      simp only at hlast
      rw [hlast]
      simp [Reading.decided]
  | none =>
      obtain ⟨rfl, hunread, hended⟩ := hlast
      rw [hunread]
      simpa [readReply] using hended

end Reader

/-- A worker whose child answers a request with the lines that a call has found, and has ended or
not as it has there, comes to what the call has come to, in whatever order the sides moved. -/
theorem PipeWorker.call_eq_of_returned {κ : Type} {kind : Child κ} {worker : PipeWorker κ}
    (hterminated : worker.terminated = false) (hwilling : kind.hasEnded worker.child = false)
    {before : PipeHost} {request : Request} {written : List Line} {child : κ}
    (hreceive : kind.receive (Inbound.line ⟨worker.nextId, request⟩) worker.child =
      (written, child)) (hid : worker.nextId = before.nextId)
    {call : PipeCall} {passed : List Line} {last : Option Line}
    (hread : call.HasRead before request passed last)
    (hlines : call.found before = worker.unread ++ written)
    (hended : call.hasEnded = kind.hasEnded child) {reply : Except WorkerError Response}
    (hreturned : call.phase = .returned reply) :
    worker.call kind request =
      (call.handed, some reply,
        { worker with child, unread := call.unread, nextId := call.nextId }) := by
  obtain ⟨hevents, hrest, hreply, hspent⟩ := hread.readReply_eq hreturned
  rw [hlines, ← hid] at hevents hrest hreply hspent
  have hnext : call.nextId = worker.nextId + 1 := hid ▸ hread.nextId_eq
  simp only [PipeWorker.call, hterminated, hwilling, hreceive, hevents, hrest, hnext, ← hended]
  generalize readReply worker.nextId request.kind (worker.unread ++ written) = reading
    at hreply hspent
  cases houtcome : reading.outcome with
  | some outcome => simpa [houtcome] using hreply
  | none => simpa [houtcome, hspent houtcome] using hreply

/-! ### One call after another -/

/-- A request to a worker behind pipes, with where its events go, and the moves of its call in their
order. -/
structure PipeErrand where
  request : Request
  reception : Reception
  schedule : List PipeMove

/-- The call of a request. -/
def PipeErrand.call (errand : PipeErrand) (host : PipeHost) : PipeCall :=
  (host.call errand.request errand.reception.channel?).run errand.schedule

/-- The host after requests, one after another.  A call that has not come to its end by the end of
its moves is given up. -/
def PipeHost.serve (host : PipeHost) (errands : List PipeErrand) : PipeHost :=
  errands.foldl (fun host errand => (errand.call host).toPipeHost) host

/-- What a call of a request under an id accepts, when it found its host as `before`. -/
structure PipeCall.AcceptsOwnReply (before : PipeHost) (id : Nat) (request : Request)
    (call : PipeCall) : Prop where
  /-- The child only adds to what it has written. -/
  output : before.output <+: call.output
  /-- The request goes out under the id, once at most. -/
  sends : call.sent = before.sent ∨ call.sent = before.sent ++ [Inbound.line ⟨id, request⟩]
  /-- Until the call returns, every line it has read leaves it open, and the sink is handed the
  events of these lines in order. -/
  reads : (∀ reply, call.phase ≠ .returned reply) → ∃ passed,
    (∀ line ∈ passed, LeavesOpen id request.kind line) ∧
      call.found before = passed ++ call.unread ∧
      call.handed <+: eventsOf id passed
  /-- A call returns at the first line that does not leave it open, or behind the last line when the
  output has ended; no line beyond has been read, and the sink was handed all events before.  It
  returns a response exactly if the line is a reply under its id that answers the request. -/
  returns : ∀ reply, call.phase = .returned reply →
    call.sent = before.sent ++ [Inbound.line ⟨id, request⟩] ∧ ∃ passed,
      (∀ line ∈ passed, LeavesOpen id request.kind line) ∧ call.handed = eventsOf id passed ∧
      ((∃ line, ¬LeavesOpen id request.kind line ∧
          call.found before = passed ++ line :: call.unread ∧
          ∀ response, reply = .ok response ↔
            frameOf? line = some (.reply id response) ∧ response.answers request.kind = true) ∨
        call.hasEnded = true ∧ call.unread = [] ∧
          call.found before = passed ∧ reply = .error .disconnected)
  /-- What the sink is handed reaches it, as long as somebody listens. -/
  sink : ∀ sink ∈ call.sink, sink.sent <+: call.handed ∧
    (sink.isOpen = true → sink.sent = call.handed)
  /-- Once the child has written a line that does not leave the call open, or has ended its output,
  a call under way returns, in whatever order the host and the receiver move. -/
  settles : call.isUnderWay = true →
    (call.hasEnded = true ∨
      ∃ line ∈ call.found before, ¬LeavesOpen id request.kind line) →
    Inevitable PipeCall.HostMoves (fun call => ∃ reply, call.phase = .returned reply) call
  /-- The reader that is given all lines at once makes the same of them. -/
  reader : ∀ reply, call.phase = .returned reply →
    let reading := readReply id request.kind (call.found before)
    reading.events = call.handed ∧ reading.rest = call.unread ∧
      reading.outcome.getD (.error .disconnected) = reply

namespace PipeCall.HasRead

variable {call : PipeCall} {before : PipeHost} {request : Request} {passed : List Line}
  {last : Option Line}

theorem sends (hread : call.HasRead before request passed last) :
    call.sent = before.sent ∨
      call.sent = before.sent ++ [Inbound.line ⟨before.nextId, request⟩] := by
  have hphase := hread.phase
  unfold PhaseFits at hphase
  rw [← hread.id_eq, ← hread.request_eq]
  cases hcase : call.phase with
  | sending | refused reason =>
      simp only [hcase] at hphase
      exact .inl hphase.1
  | reading | returned reply =>
      simp only [hcase] at hphase
      exact .inr hphase.1
  | dropped =>
      simp only [hcase] at hphase
      exact hphase.1

theorem last_eq_none (hread : call.HasRead before request passed last)
    (hopen : ∀ reply, call.phase ≠ .returned reply) : last = none := by
  have hphase := hread.phase
  unfold PhaseFits at hphase
  cases hcase : call.phase with
  | returned reply => exact absurd hcase (hopen reply)
  | sending | refused reason | reading | dropped => simp_all

theorem returns (hread : call.HasRead before request passed last)
    {reply : Except WorkerError Response} (hreturned : call.phase = .returned reply) :
    call.sent = before.sent ++ [Inbound.line ⟨before.nextId, request⟩] ∧
      call.handed = eventsOf before.nextId passed ∧
      ((∃ line, ¬LeavesOpen before.nextId request.kind line ∧
          call.found before = passed ++ line :: call.unread ∧
          ∀ response, reply = .ok response ↔
            frameOf? line = some (.reply before.nextId response) ∧
              response.answers request.kind = true) ∨
        call.hasEnded = true ∧ call.unread = [] ∧
          call.found before = passed ∧ reply = .error .disconnected) := by
  obtain ⟨hsent, hlast⟩ : call.sent = _ ∧ _ := by
    simpa only [PhaseFits, hreturned] using hread.phase
  have hheld := hread.ended (by simp [isUnderWay, hreturned])
  have hhanded := hread.allHanded (by simp [hreturned])
  have hlines := hread.found_eq
  rw [hheld, Option.toList_none, List.append_nil] at hhanded
  rw [hread.id_eq] at hhanded
  rw [hread.id_eq, hread.request_eq] at hsent
  refine ⟨hsent, hhanded, ?_⟩
  cases last with
  | some line =>
      rw [hread.id_eq, hread.request_eq] at hlast
      obtain ⟨hdecides, hreply⟩ := not_leavesOpen_of_decided hlast
      exact .inl ⟨line, hdecides, by simpa using hlines, hreply⟩
  | none =>
      obtain ⟨hreply, hunread, hended⟩ := hlast
      exact .inr ⟨hended, hunread, by simpa [hunread] using hlines, hreply⟩

/-- A call that keeps to its lines accepts its own reply only. -/
theorem acceptsOwnReply (hread : call.HasRead before request passed last)
    (hroom : ∀ sink ∈ call.sink, 0 < sink.capacity) :
    call.AcceptsOwnReply before before.nextId request where
  output := hread.output
  sends := hread.sends
  reads hopen := by
    have hlines := hread.found_eq
    rw [hread.last_eq_none hopen, Option.toList_none, List.append_nil] at hlines
    exact ⟨passed, hread.id_eq ▸ hread.leavesOpen, hlines,
      hread.id_eq ▸ (List.prefix_append _ _).trans hread.handed⟩
  returns reply hreturned := by
    obtain ⟨hsent, hhanded, hlines⟩ := hread.returns hreturned
    exact ⟨hsent, passed, hread.id_eq ▸ hread.leavesOpen, hhanded, hlines⟩
  sink := hread.sink
  settles hunderWay hdue := by
    have hsettling : call.IsSettling before request :=
      ⟨⟨passed, last, hread⟩, hroom, by rwa [IsDue, hread.request_eq], .inl hunderWay⟩
    exact hsettling.inevitable
  reader reply hreturned := by
    obtain ⟨hevents, hrest, hreply, -⟩ := hread.readReply_eq hreturned
    exact ⟨hevents, hrest, hreply⟩

end PipeCall.HasRead

theorem PipeErrand.hasRead (errand : PipeErrand) (before : PipeHost) :
    ∃ passed last, (errand.call before).HasRead before errand.request passed last :=
  (PipeCall.hasRead_call before errand.request Reception.sent_of_channel?).run errand.schedule

/-- Every request takes the next id. -/
theorem PipeHost.nextId_serve (host : PipeHost) (errands : List PipeErrand) :
    (host.serve errands).nextId = host.nextId + errands.length := by
  induction errands generalizing host with
  | nil => rfl
  | cons errand others ih =>
      obtain ⟨passed, last, hread⟩ := errand.hasRead host
      refine (ih _).trans ?_
      rw [hread.nextId_eq, List.length_cons]
      omega

/-- Whatever the child writes and however the sides come to turn, a call takes only its own reply
for the answer: the call behind `earlier` others of a worker that was not stopped asks under its
number, reads up to the first line that does not leave it open, hands on the events before it, and
returns what that line says if it is a reply under its number that answers the request, and an error
otherwise. -/
theorem PipeErrand.call_acceptsOwnReply (earlier : List PipeErrand) (errand : PipeErrand)
    (hroom : ∀ sink ∈ errand.reception.channel?, 0 < sink.capacity) :
    let before := PipeHost.serve {} earlier
    (errand.call before).AcceptsOwnReply before (earlier.length + 1) errand.request := by
  obtain ⟨passed, last, hread⟩ := errand.hasRead (PipeHost.serve {} earlier)
  have haccepts := hread.acceptsOwnReply (PipeCall.hasRoom_run hroom errand.schedule)
  rwa [PipeHost.nextId_serve, Nat.add_comm] at haccepts

/-- A reply under another id is never taken for the answer. -/
theorem verdict_reply_of_ne {id other : Nat} {kind : RequestKind} {response : Response}
    (hrange : (Outbound.reply other response).InRange)
    (hdepth : (Outbound.reply other response).toJson.depth < 128) (hother : other ≠ id) :
    verdict id kind (Outbound.reply other response).line =
      .decided (.error (.protocol (.idMismatch id other))) := by
  have hdecoded := Outbound.decodeLine_line hrange
  rw [if_pos hdepth] at hdecoded
  simp [verdict, hdecoded, Outbound.expectId, Outbound.id, hother]

end Sessions

/-- The reply to a run of one shot, under the first id. -/
def firstReply : Outbound :=
  .reply 1 (.runComplete 1)

/-- A run whose child writes its reply twice. -/
def repeatedRun : PipeErrand where
  request := .run [] none 1 .base
  reception := .buffered 1
  schedule := [.write (.ok (Outbound.event 1 ⟨"0", 0⟩).line), .write (.ok firstReply.line),
    .write (.ok firstReply.line), .send, .read, .deliver, .read]

/-- A run whose child writes nothing. -/
def silentRun : PipeErrand :=
  { repeatedRun with schedule := [.send, .read] }

local instance trailingWording : JsonWording := .always "trailing characters at line 1 column 2"

/-- The second copy of a reply is left over for the next call, which does not accept it. -/
theorem PipeErrand.call_acceptsOwnReply_repeated :
    let before := PipeHost.serve {} [repeatedRun]
    (silentRun.call before).AcceptsOwnReply before 2 silentRun.request ∧
      (repeatedRun.call {}).returned? = some (.ok (.runComplete 1)) ∧
      (repeatedRun.call {}).delivered = [⟨"0", 0⟩] ∧
      (silentRun.call before).returned? = some (.error (.protocol (.idMismatch 2 1))) := by
  have hevent : verdict 1 .run (Outbound.event 1 ⟨"0", 0⟩).line = .event ⟨"0", 0⟩ :=
    verdict_event (by decide) (by simp [RunEvent.InRange])
  have hrange : firstReply.InRange := ⟨by decide, (by decide : 1 < UInt32.size)⟩
  have hdepth : firstReply.toJson.depth < 128 := by
    simp [firstReply, Outbound.toJson, Response.toJson, Nat.lt_succ_iff]
  have hreply : verdict 1 .run firstReply.line = .decided (.ok (.runComplete 1)) :=
    verdict_reply hrange hdepth rfl
  have hstale : verdict 2 .run firstReply.line =
      .decided (.error (.protocol (.idMismatch 2 1))) :=
    verdict_reply_of_ne hrange hdepth (by decide)
  have hroom : ({ capacity := 1 } : Channel).hasRoom = true := by decide
  refine ⟨call_acceptsOwnReply [repeatedRun] silentRun (by decide), ?_⟩
  simp [PipeHost.serve, PipeErrand.call, repeatedRun, silentRun, PipeHost.call, Request.kind,
    Reception.channel?, PipeCall.run, PipeCall.step, PipeCall.write, PipeCall.send, PipeCall.read,
    judgement, hevent, hreply, hstale, PipeCall.judge, PipeCall.deliver, hroom,
    Channel.send, PipeCall.returned?, PipeCall.delivered, Channel.reached]

end GateBench.Worker
