import GateBench.Proofs.Crossing
import GateBench.Proofs.Serving

/-!
Calls of a worker behind pipes, line by line.  The child writes what it likes and when it likes,
before a request, while it is under way and after it; the host reads one line after another until
one of them decides its call.  What a line means to a call is said here without reference to how the
host reads.
-/

namespace GateBench.Worker

open Message

variable [JsonWording]

/-! ### What a line means to a call -/

/-- Whether a line holds nothing but blanks. -/
def isBlankLine : Line → Bool
  | .ok text => text.toList.all Text.isBlank
  | .error _ => false

/-- The frame that a line holds. -/
def frameOf? : Line → Option Outbound
  | .ok text => (decodeLine Outbound.decode text).toOption
  | .error _ => none

/-- A line leaves the request of an id and a kind open if it is blank, or if the request is a run
and the line holds an event of it. -/
def LeavesOpen (id : Nat) (kind : RequestKind) (line : Line) : Prop :=
  isBlankLine line = true ∨ kind = .run ∧ ∃ event, frameOf? line = some (.event id event)

/-- The event of the request of an id that a line holds. -/
def eventOf? (id : Nat) (line : Line) : Option RunEvent :=
  match frameOf? line with
  | some (.event other event) => if other = id then some event else none
  | _ => none

/-- The events of the request of an id among lines. -/
def eventsOf (id : Nat) (lines : List Line) : List RunEvent :=
  lines.filterMap (eventOf? id)

/-- What the host makes of a line, whether or not it is UTF-8. -/
def judgement (id : Nat) (kind : RequestKind) : Line → Verdict
  | .ok text => verdict id kind text
  | .error fault => .decided (.error (invalidLine fault))

@[simp]
theorem eventsOf_append (id : Nat) (lines others : List Line) :
    eventsOf id (lines ++ others) = eventsOf id lines ++ eventsOf id others :=
  List.filterMap_append

@[simp]
theorem eventsOf_singleton (id : Nat) (line : Line) :
    eventsOf id [line] = (eventOf? id line).toList := by
  cases heventOf : eventOf? id line <;> simp [eventsOf, heventOf]

section Lines

variable {id : Nat} {kind : RequestKind} {line : Line}

theorem frameOf?_of_blank (hblank : isBlankLine line = true) : frameOf? line = none := by
  cases line with
  | error fault => rfl
  | ok text =>
      have hempty : decodeLine Outbound.decode text = .error .empty :=
        decodeLine_eq_empty_iff.mpr (List.all_eq_true.mp hblank)
      simp [frameOf?, hempty, Except.toOption]

omit [JsonWording] in
/-- The host takes a reply of its request for what it says if it answers the request, and for an
error otherwise. -/
theorem acceptReply_eq_ok_iff {reply response : Response} :
    acceptReply kind reply = .ok response ↔ reply = response ∧ response.answers kind = true := by
  by_cases hanswers : reply.answers kind = true
  · rw [acceptReply_eq hanswers, Except.ok.injEq]
    exact ⟨fun heq => ⟨heq, heq ▸ hanswers⟩, And.left⟩
  · refine iff_of_false ?_ fun hboth => hanswers (hboth.1 ▸ hboth.2)
    simp [acceptReply, Response.expectKind, hanswers, Except.mapError]

/-- What the host makes of a line is what the line means to the call. -/
theorem judgement_spec (id : Nat) (kind : RequestKind) (line : Line) :
    match judgement id kind line with
    | .passedOver => isBlankLine line = true
    | .event event => kind = .run ∧ frameOf? line = some (.event id event)
    | .decided outcome =>
      ¬LeavesOpen id kind line ∧ ∀ response,
        outcome = .ok response ↔
          frameOf? line = some (.reply id response) ∧ response.answers kind = true := by
  cases line with
  | error fault => simp [judgement, LeavesOpen, isBlankLine, frameOf?]
  | ok text =>
      have hblank : isBlankLine (.ok text) = true ↔
          decodeLine Outbound.decode text = .error .empty := by
        simp [isBlankLine, decodeLine_eq_empty_iff]
      rw [judgement, verdict, LeavesOpen, hblank, frameOf?]
      cases hdecoded : decodeLine Outbound.decode text with
      | error error => cases error <;> simp [Except.toOption]
      | ok frame =>
          by_cases hid : frame.id = id
          · subst hid
            cases frame with
            | event other event =>
                by_cases hkind : kind = .run <;>
                  simp [Outbound.expectId, Outbound.id, hkind, Except.toOption]
            | reply other reply =>
                simp [Outbound.expectId, Outbound.id, Except.toOption, acceptReply_eq_ok_iff]
          · cases frame <;>
              simp_all [Outbound.expectId, Outbound.id, Except.toOption]

theorem LeavesOpen.of_passedOver (hjudged : judgement id kind line = .passedOver) :
    LeavesOpen id kind line ∧ eventOf? id line = none := by
  have hblank := judgement_spec id kind line
  rw [hjudged] at hblank
  exact ⟨.inl hblank, by simp [eventOf?, frameOf?_of_blank hblank]⟩

theorem LeavesOpen.of_event {event : RunEvent} (hjudged : judgement id kind line = .event event) :
    LeavesOpen id kind line ∧ eventOf? id line = some event := by
  have hevent := judgement_spec id kind line
  rw [hjudged] at hevent
  obtain ⟨hkind, hframe⟩ := hevent
  exact ⟨.inr ⟨hkind, event, hframe⟩, by simp [eventOf?, hframe]⟩

theorem not_leavesOpen_of_decided {outcome : Except WorkerError Response}
    (hjudged : judgement id kind line = .decided outcome) :
    ¬LeavesOpen id kind line ∧ ∀ response, outcome = .ok response ↔
      frameOf? line = some (.reply id response) ∧ response.answers kind = true := by
  have hdecided := judgement_spec id kind line
  rwa [hjudged] at hdecided

end Lines

/-! ### Calls, move by move -/

/-- The host's side of the pipes to a child: the lines it has sent; of the lines that the child has
written, those it has read and those that it has not; and whether there will be no more. -/
structure PipeHost where
  sent : List String := []
  consumed : List Line := []
  unread : List Line := []
  hasEnded : Bool := false
  nextId : Nat := 1
  terminated : Bool := false

/-- All lines that the child has written. -/
def PipeHost.output (host : PipeHost) : List Line :=
  host.consumed ++ host.unread

/-- How far a call has come: it sends its request; or it reads; or it has returned; or the child has
not taken the request; or its caller has dropped it. -/
inductive PipePhase where
  | sending
  | reading
  | returned (reply : Except WorkerError Response)
  | refused (reason : String)
  | dropped

/-- A call over pipes; `held` is an event that was read and waits to be delivered, `handed` are the
events before it. -/
structure PipeCall extends PipeHost where
  id : Nat
  request : Request
  sink : Option Channel
  handed : List RunEvent := []
  held : Option RunEvent := none
  phase : PipePhase := .sending

/-- A move of one of the sides: the child writes a line, or ends its output; the host sends its
request, or fails to; it reads a line, finds that there are no more, or delivers an event; the
receiver takes an event or goes away; the caller drops the call. -/
inductive PipeMove where
  | write (line : Line)
  | endOutput
  | send
  | refuse (reason : String)
  | read
  | disconnect
  | deliver
  | receive
  | close
  | drop

/-- Whether a move is one of the host or of the receiver, on the way to a reply. -/
def PipeMove.isHosts : PipeMove → Bool
  | .send | .read | .disconnect | .deliver | .receive => true
  | .write _ | .endOutput | .refuse _ | .close | .drop => false

/-- Begin a call. -/
def PipeHost.call (host : PipeHost) (request : Request) (sink : Option Channel) : PipeCall :=
  { host with nextId := host.nextId + 1, id := host.nextId, request, sink }

namespace PipeCall

variable {call next : PipeCall}

/-- Whether a call has neither come to an end nor been dropped. -/
def isUnderWay (call : PipeCall) : Bool :=
  match call.phase with
  | .sending | .reading => true
  | .returned _ | .refused _ | .dropped => false

/-- The child writes a line. -/
def write (call : PipeCall) (line : Line) : Option PipeCall :=
  if call.hasEnded then none else some { call with unread := call.unread ++ [line] }

/-- The host sends its request. -/
def send (call : PipeCall) : Option PipeCall :=
  match call.phase with
  | .sending =>
    some { call with
      sent := call.sent ++ [Inbound.line ⟨call.id, call.request⟩], phase := .reading }
  | _ => none

/-- The child does not take the request. -/
def refuse (call : PipeCall) (reason : String) : Option PipeCall :=
  match call.phase with
  | .sending => some { call with phase := .refused reason }
  | _ => none

/-- The host acts on its verdict. -/
def judge (call : PipeCall) : Verdict → PipeCall
  | .passedOver => call
  | .event event => { call with held := some event }
  | .decided outcome => { call with phase := .returned outcome }

/-- The host reads a line. -/
def read (call : PipeCall) : Option PipeCall :=
  match call.phase, call.held, call.unread with
  | .reading, none, line :: others =>
    some ({ call with consumed := call.consumed ++ [line], unread := others }.judge
      (judgement call.id call.request.kind line))
  | _, _, _ => none

/-- The host finds that there are no more lines. -/
def disconnect (call : PipeCall) : Option PipeCall :=
  match call.phase, call.held, call.unread with
  | .reading, none, [] =>
    if call.hasEnded then some { call with phase := .returned (.error .disconnected) } else none
  | _, _, _ => none

/-- The host delivers the event it holds, which waits for room in the sink.  It does not mind when
nobody listens. -/
def deliver (call : PipeCall) : Option PipeCall :=
  match call.held, call.sink with
  | none, _ => none
  | some event, none => some { call with held := none, handed := call.handed ++ [event] }
  | some event, some sink =>
    if !sink.isOpen then some { call with held := none, handed := call.handed ++ [event] }
    else if sink.hasRoom then
      some { call with
        held := none, handed := call.handed ++ [event], sink := some (sink.send event) }
    else none

/-- The receiver takes an event. -/
def receive (call : PipeCall) : Option PipeCall :=
  (call.sink.bind Channel.receive).map fun sink => { call with sink := some sink }

/-- The caller drops a call that is under way. -/
def drop (call : PipeCall) : Option PipeCall :=
  if call.isUnderWay then some { call with held := none, phase := .dropped } else none

/-- The call after a move, if the move can be made. -/
def step (call : PipeCall) : PipeMove → Option PipeCall
  | .write line => call.write line
  | .endOutput => some { call with hasEnded := true }
  | .send => call.send
  | .refuse reason => call.refuse reason
  | .read => call.read
  | .disconnect => call.disconnect
  | .deliver => call.deliver
  | .receive => call.receive
  | .close => some { call with sink := call.sink.map Channel.close }
  | .drop => call.drop

/-- The call after a list of moves.  A move that cannot be made changes nothing. -/
def run (call : PipeCall) (schedule : List PipeMove) : PipeCall :=
  schedule.foldl (fun call move => (call.step move).getD call) call

/-- The events that have reached the sink. -/
def delivered (call : PipeCall) : List RunEvent :=
  Channel.reached call.sink

/-- What a call has come to. -/
def returned? (call : PipeCall) : Option (Except WorkerError Response) :=
  match call.phase with
  | .returned reply => some reply
  | .refused reason => some (.error (.io reason))
  | _ => none

/-- A move of the host or of the receiver. -/
def HostMoves (call next : PipeCall) : Prop :=
  ∃ move : PipeMove, move.isHosts = true ∧ call.step move = some next

/-! ### What a move can do -/

section

omit [JsonWording]

theorem write_cases {line : Line} (hwrite : call.write line = some next) :
    call.hasEnded = false ∧ next = { call with unread := call.unread ++ [line] } := by
  obtain ⟨hgoing, hnext⟩ := Option.ite_none_left_eq_some.mp hwrite
  exact ⟨by simpa using hgoing, (Option.some.inj hnext).symm⟩

theorem send_cases (hsend : call.send = some next) :
    call.phase = .sending ∧ next = { call with
      sent := call.sent ++ [Inbound.line ⟨call.id, call.request⟩], phase := .reading } := by
  unfold send at hsend
  split at hsend
  · rename_i hphase
    exact ⟨hphase, (Option.some.inj hsend).symm⟩
  · nomatch hsend

theorem refuse_cases {reason : String} (hrefuse : call.refuse reason = some next) :
    call.phase = .sending ∧ next = { call with phase := .refused reason } := by
  unfold refuse at hrefuse
  split at hrefuse
  · rename_i hphase
    exact ⟨hphase, (Option.some.inj hrefuse).symm⟩
  · nomatch hrefuse

theorem disconnect_cases (hdisconnect : call.disconnect = some next) :
    call.phase = .reading ∧ call.held = none ∧ call.unread = [] ∧ call.hasEnded = true ∧
      next = { call with phase := .returned (.error .disconnected) } := by
  unfold disconnect at hdisconnect
  split at hdisconnect
  · rename_i hphase hheld hunread
    obtain ⟨hended, hnext⟩ := Option.ite_none_right_eq_some.mp hdisconnect
    exact ⟨hphase, hheld, hunread, hended, (Option.some.inj hnext).symm⟩
  · nomatch hdisconnect

theorem deliver_cases (hdeliver : call.deliver = some next) :
    ∃ event, call.held = some event ∧
      ((∀ sink ∈ call.sink, sink.isOpen = false) ∧
          next = { call with held := none, handed := call.handed ++ [event] } ∨
        ∃ sink, call.sink = some sink ∧ sink.isOpen = true ∧
          next = { call with
            held := none, handed := call.handed ++ [event], sink := some (sink.send event) }) := by
  unfold deliver at hdeliver
  split at hdeliver
  · nomatch hdeliver
  · rename_i event hheld hsink
    exact ⟨event, hheld, .inl ⟨by simp [hsink], (Option.some.inj hdeliver).symm⟩⟩
  · rename_i event sink hheld hsink
    refine ⟨event, hheld, ?_⟩
    split_ifs at hdeliver with hclosed hroom
    · exact .inl ⟨by simpa [hsink] using hclosed, (Option.some.inj hdeliver).symm⟩
    · exact .inr ⟨sink, hsink, by simpa using hclosed, (Option.some.inj hdeliver).symm⟩

theorem drop_cases (hdrop : call.drop = some next) :
    call.isUnderWay = true ∧ next = { call with held := none, phase := .dropped } := by
  obtain ⟨hunderWay, hnext⟩ := Option.ite_none_right_eq_some.mp hdrop
  exact ⟨hunderWay, (Option.some.inj hnext).symm⟩

end

theorem read_cases (hread : call.read = some next) :
    ∃ line others, call.phase = .reading ∧ call.held = none ∧ call.unread = line :: others ∧
      next = { call with consumed := call.consumed ++ [line], unread := others }.judge
        (judgement call.id call.request.kind line) := by
  unfold read at hread
  split at hread
  · rename_i line others hphase hheld hunread
    exact ⟨line, others, hphase, hheld, hunread, (Option.some.inj hread).symm⟩
  · nomatch hread

/-! ### What every call keeps to -/

/-- The lines that a call was to read which found its host as `before`: those left over, and those
written since. -/
def found (before : PipeHost) (call : PipeCall) : List Line :=
  call.output.drop before.consumed.length

/-- All that the child will ever write has been read. -/
def IsSpent (call : PipeCall) : Prop :=
  call.unread = [] ∧ call.hasEnded = true

/-- What its phase says of a call that has passed over some lines, and read at most one more. -/
def PhaseFits (before : PipeHost) (passed : List Line) (last : Option Line) (call : PipeCall) :
    Prop :=
  let asked := before.sent ++ [Inbound.line ⟨call.id, call.request⟩]
  match call.phase with
  | .sending | .refused _ => call.sent = before.sent ∧ passed = [] ∧ last = none
  | .reading => call.sent = asked ∧ last = none
  | .returned reply => call.sent = asked ∧
    match last with
    | some line => judgement call.id call.request.kind line = .decided reply
    | none => reply = .error .disconnected ∧ call.IsSpent
  | .dropped => (call.sent = before.sent ∨ call.sent = asked) ∧ last = none

/-- Of what the child writes, the phase asks no more than that the end stays the end. -/
theorem PhaseFits.extend {before : PipeHost} {passed : List Line} {last : Option Line}
    (hphase : call.PhaseFits before passed last) {unread : List Line} {hasEnded : Bool}
    (hspent : call.IsSpent → { call with unread, hasEnded }.IsSpent) :
    { call with unread, hasEnded }.PhaseFits before passed last := by
  unfold PhaseFits at hphase ⊢
  cases hcase : call.phase with
  | sending | reading | refused reason | dropped => simpa [hcase] using hphase
  | returned reply =>
      simp only [hcase] at hphase ⊢
      cases last with
      | some last => exact hphase
      | none => exact ⟨hphase.1, hphase.2.1, hspent hphase.2.2⟩

/-- What a call that found its host as `before` has made of the lines that were to be read: it has
passed over those that leave it open and handed their events to the sink, one by one, and it has
read at most one line more. -/
structure HasRead (before : PipeHost) (request : Request) (passed : List Line)
    (last : Option Line) (call : PipeCall) : Prop where
  id_eq : call.id = before.nextId
  nextId_eq : call.nextId = before.nextId + 1
  request_eq : call.request = request
  output : before.output <+: call.output
  consumed : call.consumed = before.consumed ++ passed ++ last.toList
  leavesOpen : ∀ line ∈ passed, LeavesOpen call.id request.kind line
  handed : call.handed ++ call.held.toList <+: eventsOf call.id passed
  allHanded : call.phase ≠ .dropped →
    call.handed ++ call.held.toList = eventsOf call.id passed
  sink : ∀ sink ∈ call.sink, sink.sent <+: call.handed ∧
    (sink.isOpen = true → sink.sent = call.handed)
  ended : call.isUnderWay = false → call.held = none
  phase : call.PhaseFits before passed last

theorem hasRead_call (before : PipeHost) (request : Request) {source : Option Channel}
    (hsource : ∀ sink ∈ source, sink.sent = []) :
    (before.call request source).HasRead before request [] none where
  id_eq := rfl
  nextId_eq := rfl
  request_eq := rfl
  output := List.prefix_rfl
  consumed := by simp [PipeHost.call]
  leavesOpen := by simp
  handed := List.prefix_rfl
  allHanded _ := rfl
  sink sink hsink := by simp [hsource sink hsink, PipeHost.call]
  ended _ := rfl
  phase := ⟨rfl, rfl, rfl⟩

namespace HasRead

variable {before : PipeHost} {request : Request} {passed : List Line} {last : Option Line}

/-- What a call was to read is what it has read and what is left. -/
theorem found_eq (hread : call.HasRead before request passed last) :
    call.found before = passed ++ last.toList ++ call.unread := by
  rw [found, PipeHost.output, hread.consumed, List.append_assoc, List.append_assoc,
    List.append_assoc, List.drop_left]

theorem write (hread : call.HasRead before request passed last) {line : Line}
    (hwrite : call.write line = some next) : next.HasRead before request passed last := by
  obtain ⟨hgoing, rfl⟩ := write_cases hwrite
  exact { hread with
    output := by
      simpa [PipeHost.output] using hread.output.trans (List.prefix_append _ [line])
    phase := hread.phase.extend fun hspent => absurd hspent.2 (by simp [hgoing]) }

theorem endOutput (hread : call.HasRead before request passed last) :
    { call with hasEnded := true }.HasRead before request passed last :=
  { hread with phase := hread.phase.extend fun hspent => ⟨hspent.1, rfl⟩ }

theorem send (hread : call.HasRead before request passed last) (hsend : call.send = some next) :
    next.HasRead before request passed last := by
  obtain ⟨hphase, rfl⟩ := send_cases hsend
  obtain ⟨hsent, -, hlast⟩ : call.sent = before.sent ∧ passed = [] ∧ last = none := by
    simpa [PhaseFits, hphase] using hread.phase
  exact { hread with
    allHanded := fun _ => hread.allHanded (by simp [hphase])
    ended := nofun
    phase := ⟨by rw [hsent], hlast⟩ }

theorem refuse (hread : call.HasRead before request passed last) {reason : String}
    (hrefuse : call.refuse reason = some next) : next.HasRead before request passed last := by
  obtain ⟨hphase, rfl⟩ := refuse_cases hrefuse
  have hunsent : call.sent = before.sent ∧ passed = [] ∧ last = none := by
    simpa [PhaseFits, hphase] using hread.phase
  have hhanded := hread.allHanded (by simp [hphase])
  rw [hunsent.2.1] at hhanded
  exact { hread with
    allHanded := fun _ => hread.allHanded (by simp [hphase])
    ended := fun _ => by simpa using (List.append_eq_nil_iff.mp hhanded).2
    phase := hunsent }

/-- A line that leaves the call open is passed over, and its event is held. -/
theorem passOver (hread : call.HasRead before request passed none) {line : Line}
    {others : List Line} (hphase : call.phase = .reading) (hheld : call.held = none)
    (hunread : call.unread = line :: others)
    (hopen : LeavesOpen call.id call.request.kind line) :
    { call with
      consumed := call.consumed ++ [line]
      unread := others
      held := eventOf? call.id line }.HasRead before request (passed ++ [line]) none := by
  have hevents : call.handed ++ (eventOf? call.id line).toList =
      eventsOf call.id (passed ++ [line]) := by
    have hhanded := hread.allHanded (by simp [hphase])
    rw [hheld, Option.toList_none, List.append_nil] at hhanded
    rw [eventsOf_append, eventsOf_singleton, hhanded]
  exact { hread with
    output := by simpa [PipeHost.output, hunread] using hread.output
    consumed := by simp [hread.consumed]
    leavesOpen := by
      rw [hread.request_eq] at hopen
      simpa [or_imp, forall_and] using ⟨hread.leavesOpen, hopen⟩
    handed := hevents ▸ List.prefix_rfl
    allHanded := fun _ => hevents
    ended := fun hover => by simp [isUnderWay, hphase] at hover
    phase := by simpa [PhaseFits, hphase] using hread.phase }

/-- A line that was read is passed over, or it is the last. -/
theorem read (hread : call.HasRead before request passed last) (hstep : call.read = some next) :
    ∃ passed last, next.HasRead before request passed last := by
  obtain ⟨line, others, hphase, hheld, hunread, hnext⟩ := read_cases hstep
  obtain ⟨hsent, rfl⟩ : call.sent = before.sent ++ [Inbound.line ⟨call.id, call.request⟩] ∧
      last = none := by
    simpa [PhaseFits, hphase] using hread.phase
  rw [hnext]
  cases hjudged : judgement call.id call.request.kind line with
  | passedOver =>
      obtain ⟨hopen, hevent⟩ := LeavesOpen.of_passedOver hjudged
      have hpassed := hread.passOver hphase hheld hunread hopen
      rw [hevent, ← hheld] at hpassed
      exact ⟨passed ++ [line], none, hpassed⟩
  | event event =>
      obtain ⟨hopen, hevent⟩ := LeavesOpen.of_event hjudged
      have hpassed := hread.passOver hphase hheld hunread hopen
      rw [hevent] at hpassed
      exact ⟨passed ++ [line], none, hpassed⟩
  | decided outcome =>
      exact ⟨passed, some line, { hread with
        output := by simpa [PipeHost.output, judge, hunread] using hread.output
        consumed := by simp [judge, hread.consumed]
        allHanded := fun _ => hread.allHanded (by simp [hphase])
        ended := fun _ => hheld
        phase := ⟨hsent, hjudged⟩ }⟩

theorem disconnect (hread : call.HasRead before request passed last)
    (hdisconnect : call.disconnect = some next) : next.HasRead before request passed last := by
  obtain ⟨hphase, hheld, hunread, hended, rfl⟩ := disconnect_cases hdisconnect
  obtain ⟨hsent, rfl⟩ : call.sent = before.sent ++ [Inbound.line ⟨call.id, call.request⟩] ∧
      last = none := by
    simpa [PhaseFits, hphase] using hread.phase
  exact { hread with
    allHanded := fun _ => hread.allHanded (by simp [hphase])
    ended := fun _ => hheld
    phase := ⟨hsent, rfl, hunread, hended⟩ }

theorem deliver (hread : call.HasRead before request passed last)
    (hdeliver : call.deliver = some next) : next.HasRead before request passed last := by
  obtain ⟨event, hheld, hnext⟩ := deliver_cases hdeliver
  have hevents : call.handed ++ [event] ++ (none : Option RunEvent).toList =
      call.handed ++ call.held.toList := by
    simp [hheld]
  rcases hnext with ⟨hclosed, rfl⟩ | ⟨sink, hsink, hopen, rfl⟩
  · exact { hread with
      handed := hevents ▸ hread.handed
      allHanded := fun hkept => hevents ▸ hread.allHanded hkept
      sink := fun sink hsink =>
        ⟨(hread.sink sink hsink).1.trans (List.prefix_append _ _), fun hopen => by
          simp [hclosed sink hsink] at hopen⟩
      ended := fun _ => rfl }
  · have hsent : sink.sent = call.handed := (hread.sink sink hsink).2 hopen
    exact { hread with
      handed := hevents ▸ hread.handed
      allHanded := fun hkept => hevents ▸ hread.allHanded hkept
      sink := by simp [Channel.send, hsent]
      ended := fun _ => rfl }

theorem receive (hread : call.HasRead before request passed last)
    (hreceive : call.receive = some next) : next.HasRead before request passed last := by
  obtain ⟨later, hlater, rfl⟩ := Option.map_eq_some_iff.mp hreceive
  obtain ⟨sink, event, others, hsink, -, -, rfl⟩ := Channel.receive_cases hlater
  refine { hread with sink := ?_ }
  rintro _ ⟨⟩
  exact hread.sink sink hsink

theorem close (hread : call.HasRead before request passed last) :
    { call with sink := call.sink.map Channel.close }.HasRead before request passed last := by
  refine { hread with sink := fun closed hclosed => ?_ }
  obtain ⟨sink, hsink, rfl⟩ := Option.map_eq_some_iff.mp hclosed
  exact ⟨(hread.sink sink hsink).1, nofun⟩

theorem drop (hread : call.HasRead before request passed last) (hdrop : call.drop = some next) :
    next.HasRead before request passed last := by
  obtain ⟨hunderWay, rfl⟩ := drop_cases hdrop
  refine { hread with
    handed := ?_, allHanded := fun hkept => absurd rfl hkept, ended := fun _ => rfl, phase := ?_ }
  · simpa using (List.prefix_append _ _).trans hread.handed
  · have hphase := hread.phase
    unfold PhaseFits at hphase ⊢
    cases hcase : call.phase with
    | sending =>
        simp only [hcase] at hphase ⊢
        exact ⟨.inl hphase.1, hphase.2.2⟩
    | reading =>
        simp only [hcase] at hphase ⊢
        exact ⟨.inr hphase.1, hphase.2⟩
    | returned reply | refused reason | dropped => simp [isUnderWay, hcase] at hunderWay

/-- Every move of any side keeps to it. -/
theorem step (hread : call.HasRead before request passed last) {move : PipeMove}
    (hstep : call.step move = some next) :
    ∃ passed last, next.HasRead before request passed last := by
  cases move with
  | write line => exact ⟨passed, last, hread.write hstep⟩
  | endOutput => exact ⟨passed, last, Option.some.inj hstep ▸ hread.endOutput⟩
  | send => exact ⟨passed, last, hread.send hstep⟩
  | refuse reason => exact ⟨passed, last, hread.refuse hstep⟩
  | read => exact hread.read hstep
  | disconnect => exact ⟨passed, last, hread.disconnect hstep⟩
  | deliver => exact ⟨passed, last, hread.deliver hstep⟩
  | receive => exact ⟨passed, last, hread.receive hstep⟩
  | close => exact ⟨passed, last, Option.some.inj hstep ▸ hread.close⟩
  | drop => exact ⟨passed, last, hread.drop hstep⟩

/-- So it holds after every schedule. -/
theorem run (hread : call.HasRead before request passed last) (schedule : List PipeMove) :
    ∃ passed last, (call.run schedule).HasRead before request passed last :=
  invariant_of_moves (fun call : PipeCall => ∃ passed last, call.HasRead before request passed last)
    (fun ⟨_, _, hread⟩ hstep => hread.step hstep) ⟨passed, last, hread⟩ schedule

end HasRead

/-! ### How far a call has still to go -/

/-- No move changes how much the sink can hold. -/
theorem capacity_step {move : PipeMove} (hstep : call.step move = some next) :
    next.sink.map (·.capacity) = call.sink.map (·.capacity) := by
  cases move with
  | write line =>
      obtain ⟨-, rfl⟩ := write_cases hstep
      rfl
  | endOutput =>
      obtain rfl := Option.some.inj hstep
      rfl
  | send =>
      obtain ⟨-, rfl⟩ := send_cases hstep
      rfl
  | refuse reason =>
      obtain ⟨-, rfl⟩ := refuse_cases hstep
      rfl
  | read =>
      obtain ⟨line, others, -, -, -, rfl⟩ := read_cases hstep
      cases judgement call.id call.request.kind line <;> rfl
  | disconnect =>
      obtain ⟨-, -, -, -, rfl⟩ := disconnect_cases hstep
      rfl
  | deliver =>
      obtain ⟨event, -, ⟨-, rfl⟩ | ⟨sink, hsink, -, rfl⟩⟩ := deliver_cases hstep
      · rfl
      · simp [hsink, Channel.send]
  | receive =>
      obtain ⟨later, hlater, rfl⟩ := Option.map_eq_some_iff.mp hstep
      obtain ⟨sink, event, others, hsink, -, -, rfl⟩ := Channel.receive_cases hlater
      simp [hsink, Channel.take]
  | close =>
      obtain rfl := Option.some.inj hstep
      cases call.sink <;> rfl
  | drop =>
      obtain ⟨-, rfl⟩ := drop_cases hstep
      rfl

theorem hasRoom_step {move : PipeMove} (hstep : call.step move = some next)
    (hroom : ∀ sink ∈ call.sink, 0 < sink.capacity) : ∀ sink ∈ next.sink, 0 < sink.capacity := by
  intro sink hsink
  have hcapacity := capacity_step hstep
  rw [hsink, Option.map_some] at hcapacity
  obtain ⟨earlier, hearlier, heq⟩ := Option.map_eq_some_iff.mp hcapacity.symm
  exact heq ▸ hroom earlier hearlier

theorem hasRoom_run (hroom : ∀ sink ∈ call.sink, 0 < sink.capacity) (schedule : List PipeMove) :
    ∀ sink ∈ (call.run schedule).sink, 0 < sink.capacity :=
  invariant_of_moves (fun call : PipeCall => ∀ sink ∈ call.sink, 0 < sink.capacity)
    (fun hroom hstep => hasRoom_step hstep hroom) hroom schedule

/-- The weight of what the host and the receiver have still to do. -/
def weight (call : PipeCall) : Nat :=
  3 * call.unread.length + 2 * call.held.toList.length +
    ((call.sink.map Channel.waiting).getD []).length +
    match call.phase with
    | .sending => 2
    | .reading => 1
    | .returned _ | .refused _ | .dropped => 0

/-- What the host and the receiver leave as it is: what the child writes, what is asked for, and
that nobody has broken the call off. -/
structure KeepsSides (call next : PipeCall) : Prop where
  output : next.output = call.output
  hasEnded : next.hasEnded = call.hasEnded
  request : next.request = call.request
  stays : (call.isUnderWay = true ∨ ∃ reply, call.phase = .returned reply) →
    next.isUnderWay = true ∨ ∃ reply, next.phase = .returned reply

/-- Every move of the host or the receiver brings a call nearer to its end. -/
theorem HostMoves.lighter (hmove : call.HostMoves next) :
    call.KeepsSides next ∧ next.weight < call.weight := by
  obtain ⟨move, hhosts, hstep⟩ := hmove
  cases move with
  | write | endOutput | refuse | close | drop => nomatch hhosts
  | send =>
      obtain ⟨hphase, rfl⟩ := send_cases hstep
      exact ⟨⟨rfl, rfl, rfl, fun _ => .inl rfl⟩, by simp [weight, hphase]⟩
  | read =>
      obtain ⟨line, others, hphase, hheld, hunread, rfl⟩ := read_cases hstep
      have houtput : call.consumed ++ [line] ++ others = call.output := by
        simp [PipeHost.output, hunread]
      cases judgement call.id call.request.kind line with
      | passedOver =>
          refine ⟨⟨houtput, rfl, rfl, fun hstays => hstays⟩, ?_⟩
          simp only [weight, judge, hphase, hunread, List.length_cons]
          omega
      | event event =>
          refine ⟨⟨houtput, rfl, rfl, fun hstays => hstays⟩, ?_⟩
          simp only [weight, judge, hphase, hheld, hunread, Option.toList_none,
            Option.toList_some, List.length_cons, List.length_nil]
          omega
      | decided outcome =>
          refine ⟨⟨houtput, rfl, rfl, fun _ => .inr ⟨outcome, rfl⟩⟩, ?_⟩
          simp only [weight, judge, hphase, hunread, List.length_cons]
          omega
  | disconnect =>
      obtain ⟨hphase, -, -, -, rfl⟩ := disconnect_cases hstep
      exact ⟨⟨rfl, rfl, rfl, fun _ => .inr ⟨_, rfl⟩⟩, by simp [weight, hphase]⟩
  | deliver =>
      obtain ⟨event, hheld, ⟨-, rfl⟩ | ⟨sink, hsink, -, rfl⟩⟩ := deliver_cases hstep
      · exact ⟨⟨rfl, rfl, rfl, fun hstays => hstays⟩, by simp [weight, hheld]⟩
      · refine ⟨⟨rfl, rfl, rfl, fun hstays => hstays⟩, ?_⟩
        simp only [weight, hheld, hsink, Channel.send, Channel.waiting,
          Option.map_some, Option.getD_some, Option.toList_none, Option.toList_some,
          List.length_drop, List.length_append, List.length_cons, List.length_nil]
        omega
  | receive =>
      obtain ⟨later, hlater, rfl⟩ := Option.map_eq_some_iff.mp hstep
      obtain ⟨sink, event, others, hsink, -, hwaiting, rfl⟩ := Channel.receive_cases hlater
      refine ⟨⟨rfl, rfl, rfl, fun hstays => hstays⟩, ?_⟩
      simp only [weight, hsink, Option.map_some, Option.getD_some,
        Channel.waiting_take, hwaiting, List.tail_cons, List.length_cons]
      omega

/-- A host that holds an event waits for the receiver at most. -/
theorem exists_move_of_held {event : RunEvent} (hheld : call.held = some event)
    (hroom : ∀ sink ∈ call.sink, 0 < sink.capacity) : ∃ next, call.HostMoves next := by
  cases hsink : call.sink with
  | none => exact ⟨_, .deliver, rfl, by simp [step, PipeCall.deliver, hheld, hsink]; rfl⟩
  | some sink =>
      cases hopen : sink.isOpen with
      | false =>
          exact ⟨_, .deliver, rfl, by simp [step, PipeCall.deliver, hheld, hsink, hopen]; rfl⟩
      | true =>
          cases hwaiting : sink.waiting with
          | nil =>
              have hfits := Channel.hasRoom_of_waiting_eq_nil (hroom sink hsink) hwaiting
              exact ⟨_, .deliver, rfl, by
                simp [step, PipeCall.deliver, hheld, hsink, hopen, hfits]; rfl⟩
          | cons event others =>
              have htaken := Channel.receive_of_waiting hopen hwaiting
              exact ⟨_, .receive, rfl, by simp [step, PipeCall.receive, hsink, htaken]; rfl⟩

/-- The lines that were to be read by a call decide it, or there will be no more. -/
def IsDue (before : PipeHost) (call : PipeCall) : Prop :=
  call.hasEnded = true ∨
    ∃ line ∈ call.found before, ¬LeavesOpen before.nextId call.request.kind line

namespace HasRead

variable {before : PipeHost} {request : Request} {passed : List Line} {last : Option Line}

/-- A call under way that is due is never stuck. -/
theorem exists_move (hread : call.HasRead before request passed last)
    (hroom : ∀ sink ∈ call.sink, 0 < sink.capacity) (hunderWay : call.isUnderWay = true)
    (hdue : call.IsDue before) : ∃ next, call.HostMoves next := by
  cases hphase : call.phase with
  | returned reply | refused reason | dropped => simp [isUnderWay, hphase] at hunderWay
  | sending => exact ⟨_, .send, rfl, by simp [PipeCall.step, PipeCall.send, hphase]; rfl⟩
  | reading =>
      cases hheld : call.held with
      | some event => exact exists_move_of_held hheld hroom
      | none =>
          cases hunread : call.unread with
          | cons line others =>
              exact ⟨_, .read, rfl, by
                simp [PipeCall.step, PipeCall.read, hphase, hheld, hunread]; rfl⟩
          | nil =>
              have hended : call.hasEnded = true := by
                refine hdue.resolve_right fun ⟨line, hline, hdecides⟩ => hdecides ?_
                have hlast : last = none := (by
                  simpa [PhaseFits, hphase] using hread.phase : _ ∧ last = none).2
                rw [hread.found_eq, hlast, hunread, Option.toList_none, List.append_nil,
                  List.append_nil] at hline
                rw [← hread.id_eq, hread.request_eq]
                exact hread.leavesOpen line hline
              exact ⟨_, .disconnect, rfl, by
                simp [PipeCall.step, PipeCall.disconnect, hphase, hheld, hunread, hended]; rfl⟩

end HasRead

/-- A call that is due, and that neither the child nor the caller has broken off. -/
structure IsSettling (before : PipeHost) (request : Request) (call : PipeCall) : Prop where
  hasRead : ∃ passed last, call.HasRead before request passed last
  hasRoom : ∀ sink ∈ call.sink, 0 < sink.capacity
  isDue : call.IsDue before
  stays : call.isUnderWay = true ∨ ∃ reply, call.phase = .returned reply

namespace IsSettling

variable {before : PipeHost} {request : Request}

theorem step (hcall : call.IsSettling before request) (hmove : call.HostMoves next) :
    next.IsSettling before request := by
  obtain ⟨⟨passed, last, hread⟩, hroom, hdue, hstays⟩ := hcall
  obtain ⟨hkeeps, -⟩ := hmove.lighter
  obtain ⟨move, -, hstep⟩ := hmove
  refine ⟨hread.step hstep, hasRoom_step hstep hroom, ?_, hkeeps.stays hstays⟩
  rwa [IsDue, found, hkeeps.output, hkeeps.hasEnded, hkeeps.request]

/-- In whatever order the host and the receiver move, a call that is due returns. -/
theorem inevitable (hcall : call.IsSettling before request) :
    Inevitable HostMoves (fun call => ∃ reply, call.phase = .returned reply) call := by
  refine .of_weight Nat.lt_wfRel.wf weight
    (fun call next (hcall : call.IsSettling before request) hmove =>
      ⟨hcall.step hmove, hmove.lighter.2⟩)
    (fun call hcall => ?_) hcall
  obtain ⟨⟨passed, last, hread⟩, hroom, hdue, hunderWay | hreturned⟩ := hcall
  · exact .inr (hread.exists_move hroom hunderWay hdue)
  · exact .inl hreturned

end IsSettling

end PipeCall

end GateBench.Worker
