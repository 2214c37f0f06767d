import GateBench.Proofs.ServeLoop

/-!
Calls that cross to a worker behind two pipes.  The host writes its request and then reads lines
until one decides the call; the worker's loop reads and writes at the other ends.  Both pipes hold
a bounded number of characters, and every character moves on its own.
-/

namespace GateBench.Worker

open Message

/-- A pipe with room for so many characters, and the characters in it, oldest first. -/
structure CharPipe where
  capacity : Nat
  content : List Char := []

namespace CharPipe

/-- Whether there is room for one more character. -/
def hasRoom (pipe : CharPipe) : Bool :=
  pipe.content.length < pipe.capacity

/-- Write a character. -/
def put (pipe : CharPipe) (c : Char) : CharPipe :=
  { pipe with content := pipe.content ++ [c] }

/-- Read the oldest character. -/
def drop (pipe : CharPipe) : CharPipe :=
  { pipe with content := pipe.content.tail }

theorem hasRoom_of_empty {pipe : CharPipe} (hcapacity : 0 < pipe.capacity)
    (hempty : pipe.content = []) : pipe.hasRoom = true := by
  simpa [hasRoom, hempty] using hcapacity

end CharPipe

/-- What the host makes of a line. -/
inductive Verdict where
  | passedOver
  | event (event : RunEvent)
  | decided (outcome : Except WorkerError Response)

/-- What the host makes of a line while the request of an id and a kind is under way. -/
def verdict [JsonWording] (id : Nat) (kind : RequestKind) (line : String) : Verdict :=
  match decodeLine Outbound.decode line with
  | .error .empty => .passedOver
  | .error error => .decided (.error (.protocol error))
  | .ok frame =>
    match frame.expectId id with
    | .error error => .decided (.error (.protocol error))
    | .ok (.reply _ response) => .decided (acceptReply kind response)
    | .ok (.event _ event) =>
      if kind = .run then .event event
      else .decided (.error (.protocol (.unexpectedReply kind "event")))

/-- Reading takes one line after another to its verdict. -/
theorem readReply_cons [JsonWording] (id : Nat) (kind : RequestKind) (line : String)
    (rest : List Line) :
    readReply id kind (.ok line :: rest) =
      match verdict id kind line with
      | .passedOver => readReply id kind rest
      | .event event =>
        let reading := readReply id kind rest
        { reading with events := event :: reading.events }
      | .decided outcome => .decided outcome rest := by
  rw [readReply, verdict]
  cases decodeLine Outbound.decode line with
  | error error => cases error <;> rfl
  | ok frame =>
      cases hexpected : frame.expectId id with
      | error error => simp [hexpected]
      | ok frame =>
          cases frame with
          | reply id response => simp [hexpected]
          | event id event => by_cases hkind : kind = .run <;> simp [hexpected, hkind]

/-- Both ends of the pipes to a worker: the host holds what it has read of a line that has not
ended. -/
structure Link where
  nextId : Nat := 1
  requests : CharPipe
  frames : CharPipe
  line : List Char := []
  child : ServeLoop

/-- A call over a link: what is to be written of the request, the event that waits for room in the
sink, and the reply. -/
structure Crossing extends Link where
  id : Nat
  kind : RequestKind
  sink : Option Channel
  unwritten : List Char
  held : Option RunEvent := none
  reply? : Option (Except WorkerError Response) := none

/-- A move of one of the sides: the host writes or reads a character, or delivers an event; the
receiver takes an event; the worker's loop reads or writes a character, its call makes a move, or it
turns to the next event or to the reply. -/
inductive CrossingMove where
  | send
  | read
  | deliver
  | receive
  | childRead
  | childWrite
  | advance (move : Move)
  | relay
  | answer
deriving DecidableEq, Repr

/-- Begin a call. -/
def Link.call (link : Link) (request : Request) (sink : Option Channel) : Crossing :=
  { link with
    nextId := link.nextId + 1
    id := link.nextId
    kind := request.kind
    sink
    unwritten := (Inbound.line ⟨link.nextId, request⟩).toList ++ ['\n'] }

/-- No characters are on their way, and the worker waits for a request. -/
structure Link.IsAtRest (worker : LocalWorker) (link : Link) : Prop where
  requests : link.requests.content = []
  frames : link.frames.content = []
  line : link.line = []
  child : link.child.IsIdle worker

namespace Crossing

variable {crossing next : Crossing}

/-- The host writes a character of its request. -/
def send (crossing : Crossing) : Option Crossing :=
  match crossing.unwritten with
  | c :: others =>
    if crossing.requests.hasRoom then
      some { crossing with requests := crossing.requests.put c, unwritten := others }
    else none
  | [] => none

/-- The host makes something of a line. -/
def judge (crossing : Crossing) : Verdict → Crossing
  | .passedOver => crossing
  | .event event => { crossing with held := some event }
  | .decided outcome => { crossing with reply? := some outcome }

/-- Whether the host reads. -/
def isReading (crossing : Crossing) : Bool :=
  crossing.unwritten.isEmpty && crossing.held.isNone && crossing.reply?.isNone

/-- The host reads a character. -/
def read [JsonWording] (crossing : Crossing) : Option Crossing :=
  match crossing.frames.content with
  | c :: _ =>
    if crossing.isReading then
      let crossing := { crossing with frames := crossing.frames.drop }
      if c = '\n' then
        some ({ crossing with line := [] }.judge
          (verdict crossing.id crossing.kind (endedLine crossing.line)))
      else some { crossing with line := crossing.line ++ [c] }
    else none
  | [] => none

/-- The host delivers an event, which waits for room in the sink.  It does not mind when nobody
listens. -/
def deliver (crossing : Crossing) : Option Crossing :=
  match crossing.held, crossing.sink with
  | none, _ => none
  | some _, none => some { crossing with held := none }
  | some event, some sink =>
    if !sink.isOpen then some { crossing with held := none }
    else if sink.hasRoom then
      some { crossing with held := none, sink := some (sink.send event) }
    else none

/-- The receiver takes an event. -/
def receive (crossing : Crossing) : Option Crossing :=
  (crossing.sink.bind Channel.receive).map fun sink => { crossing with sink := some sink }

/-- The worker's loop reads a character. -/
def childRead [JsonWording] (crossing : Crossing) : Option Crossing :=
  match crossing.requests.content with
  | c :: _ =>
    (crossing.child.read c).map fun child =>
      { crossing with requests := crossing.requests.drop, child }
  | [] => none

/-- The worker's loop writes a character. -/
def childWrite (crossing : Crossing) : Option Crossing :=
  match crossing.child.unwritten with
  | c :: others =>
    if crossing.frames.hasRoom then
      some { crossing with
        frames := crossing.frames.put c
        child := { crossing.child with unwritten := others } }
    else none
  | [] => none

/-- The crossing after a move, if the move can be made. -/
def step [JsonWording] (crossing : Crossing) : CrossingMove → Option Crossing
  | .send => crossing.send
  | .read => crossing.read
  | .deliver => crossing.deliver
  | .receive => crossing.receive
  | .childRead => crossing.childRead
  | .childWrite => crossing.childWrite
  | .advance move => (crossing.child.advance move).map ({ crossing with child := · })
  | .relay => crossing.child.relay.map ({ crossing with child := · })
  | .answer => crossing.child.answer.map ({ crossing with child := · })

/-- A move of any side. -/
def Moves [JsonWording] (crossing next : Crossing) : Prop :=
  ∃ move, crossing.step move = some next

/-- The events that have reached the sink. -/
def delivered (crossing : Crossing) : List RunEvent :=
  Channel.reached crossing.sink

/-- What a call comes to: what it returns, and what has reached its sink by then. -/
def outcome? (crossing : Crossing) : Option (Except WorkerError Response × List RunEvent) :=
  crossing.reply?.map (·, crossing.delivered)

/-! ### What a move can do -/

theorem send_cases (hsend : crossing.send = some next) :
    ∃ c others, crossing.unwritten = c :: others ∧
      next = { crossing with requests := crossing.requests.put c, unwritten := others } := by
  unfold send at hsend
  split at hsend
  · rename_i c others hunwritten
    split_ifs at hsend
    exact ⟨c, others, hunwritten, (Option.some.inj hsend).symm⟩
  · nomatch hsend

theorem isReading_iff :
    crossing.isReading = true ↔
      crossing.unwritten = [] ∧ crossing.held = none ∧ crossing.reply? = none := by
  simp [isReading, and_assoc]

theorem read_cases [JsonWording] (hread : crossing.read = some next) :
    ∃ c others, crossing.frames.content = c :: others ∧ crossing.isReading = true ∧
      (c ≠ '\n' ∧
          next = { crossing with
            frames := crossing.frames.drop, line := crossing.line ++ [c] } ∨
        c = '\n' ∧
          next = { crossing with frames := crossing.frames.drop, line := [] }.judge
            (verdict crossing.id crossing.kind (endedLine crossing.line))) := by
  unfold read at hread
  split at hread
  · rename_i c others hcontent
    split_ifs at hread with hreading hfeed
    · exact ⟨c, others, hcontent, hreading, .inr ⟨hfeed, (Option.some.inj hread).symm⟩⟩
    · exact ⟨c, others, hcontent, hreading, .inl ⟨hfeed, (Option.some.inj hread).symm⟩⟩
  · nomatch hread

theorem exists_read [JsonWording] {c : Char} {others : List Char}
    (hcontent : crossing.frames.content = c :: others) (hreading : crossing.isReading = true) :
    ∃ next, crossing.Moves next := by
  by_cases hc : c = '\n'
  · exact ⟨_, .read, by simp [step, read, hcontent, hreading, hc]; rfl⟩
  · exact ⟨_, .read, by simp [step, read, hcontent, hreading, hc]; rfl⟩

theorem deliver_cases (hdeliver : crossing.deliver = some next) :
    ∃ event, crossing.held = some event ∧
      (crossing.sink = none ∧ next = { crossing with held := none } ∨
        ∃ sink, crossing.sink = some sink ∧
          (sink.isOpen = false ∧ next = { crossing with held := none } ∨
            sink.isOpen = true ∧
              next = { crossing with held := none, sink := some (sink.send event) })) := by
  unfold deliver at hdeliver
  split at hdeliver
  · nomatch hdeliver
  · rename_i event hheld hsink
    exact ⟨event, hheld, .inl ⟨hsink, (Option.some.inj hdeliver).symm⟩⟩
  · rename_i event sink hheld hsink
    refine ⟨event, hheld, .inr ⟨sink, hsink, ?_⟩⟩
    split_ifs at hdeliver with hclosed hroom
    · exact .inl ⟨by simpa using hclosed, (Option.some.inj hdeliver).symm⟩
    · exact .inr ⟨by simpa using hclosed, (Option.some.inj hdeliver).symm⟩

theorem childRead_cases [JsonWording] (hread : crossing.childRead = some next) :
    ∃ c others child, crossing.requests.content = c :: others ∧
      crossing.child.read c = some child ∧
      next = { crossing with requests := crossing.requests.drop, child } := by
  unfold childRead at hread
  split at hread
  · rename_i c others hcontent
    obtain ⟨child, hchild, hnext⟩ := Option.map_eq_some_iff.mp hread
    exact ⟨c, others, child, hcontent, hchild, hnext.symm⟩
  · nomatch hread

theorem childWrite_cases (hwrite : crossing.childWrite = some next) :
    ∃ c others, crossing.child.unwritten = c :: others ∧
      next = { crossing with
        frames := crossing.frames.put c
        child := { crossing.child with unwritten := others } } := by
  unfold childWrite at hwrite
  split at hwrite
  · rename_i c others hunwritten
    split_ifs at hwrite
    exact ⟨c, others, hunwritten, (Option.some.inj hwrite).symm⟩
  · nomatch hwrite

/-- A request is sent or read further while characters of it are left. -/
theorem exists_move_of_incoming [JsonWording] {c : Char} {rest : List Char} {child : ServeLoop}
    (hcapacity : 0 < crossing.requests.capacity)
    (hincoming : crossing.requests.content ++ crossing.unwritten = c :: rest)
    (hchild : crossing.child.read c = some child) : ∃ next, crossing.Moves next := by
  cases hcontent : crossing.requests.content with
  | nil =>
      have hunwritten : crossing.unwritten = c :: rest := by simpa [hcontent] using hincoming
      have hroom := CharPipe.hasRoom_of_empty hcapacity hcontent
      exact ⟨_, .send, by simp [step, send, hunwritten, hroom]; rfl⟩
  | cons first others =>
      obtain ⟨rfl, -⟩ : first = c ∧ _ := by simpa [hcontent] using hincoming
      exact ⟨_, .childRead, by simp [step, childRead, hcontent, hchild]; rfl⟩

/-- A frame is written or read further while characters of it are left. -/
theorem exists_move_of_unwritten [JsonWording] {c : Char} {rest : List Char}
    (hcapacity : 0 < crossing.frames.capacity) (hunwritten : crossing.child.unwritten = c :: rest)
    (hreading : crossing.isReading = true) : ∃ next, crossing.Moves next := by
  cases hcontent : crossing.frames.content with
  | nil =>
      have hroom := CharPipe.hasRoom_of_empty hcapacity hcontent
      exact ⟨_, .childWrite, by simp [step, childWrite, hunwritten, hroom]; rfl⟩
  | cons first others => exact exists_read hcontent hreading

/-! ### The course of a call that nobody disturbs -/

/-- The host understands every frame of an outcome: each is one line, and the line of an event or
of the reply is taken for what it is. -/
structure Legible [JsonWording] (id : Nat) (kind : RequestKind) (events : List RunEvent)
    (response : Response) : Prop where
  event : ∀ event ∈ events, Text.IsOneLine (Outbound.event id event).line ∧
    verdict id kind (Outbound.event id event).line = .event event
  reply : Text.IsOneLine (Outbound.reply id response).line ∧
    verdict id kind (Outbound.reply id response).line = .decided (.ok response)

/-- Where the host is in the text of an outcome of which the worker has still to write `toCome`:
it has passed on some events, may hold one, and has some left to read; once it has the reply,
nothing is left to read. -/
structure Reads (id : Nat) (kind : RequestKind) (source : Option Channel)
    (events : List RunEvent) (response : Response) (toCome : List Char)
    (passed left : List RunEvent) (crossing : Crossing) : Prop where
  id_eq : crossing.id = id
  kind_eq : crossing.kind = kind
  split : passed ++ crossing.held.toList ++ left = events
  sink : Option.Rel (fun before now => now.IsSteady ∧ now.sent = before.sent ++ passed) source
    crossing.sink
  feed : '\n' ∉ crossing.line
  text : crossing.line ++ crossing.frames.content ++ toCome =
    if crossing.reply?.isNone then ServeLoop.outcomeText id left response else []
  replied : crossing.reply? = none ∨
    crossing.reply? = some (.ok response) ∧ left = [] ∧ crossing.held = none

/-- The weight of what the host has still to read, to deliver and to have received. -/
def hostWeight (crossing : Crossing) : Nat :=
  3 * crossing.frames.content.length + 2 * crossing.held.toList.length +
    ((crossing.sink.map Channel.waiting).getD []).length

namespace Reads

variable {id : Nat} {kind : RequestKind} {source : Option Channel} {events : List RunEvent}
  {response : Response} {toCome : List Char} {passed left : List RunEvent}

/-- The line at the front of what is left to read, and what the host makes of it. -/
theorem line_read [JsonWording]
    (hreads : crossing.Reads id kind source events response toCome passed left)
    {line : String} {others rest : List Char} (hone : Text.IsOneLine line)
    (htext : crossing.line ++ '\n' :: others = line.toList ++ '\n' :: rest) :
    verdict crossing.id crossing.kind (endedLine crossing.line) = verdict id kind line ∧
      others = rest := by
  obtain ⟨hline, hrest⟩ := Text.eq_of_append_feed hreads.feed hone.1 htext
  rw [hline, endedLine_toList hone.2, hreads.id_eq, hreads.kind_eq]
  exact ⟨rfl, hrest⟩

theorem read [JsonWording] (hlegible : Legible id kind events response)
    (hreads : crossing.Reads id kind source events response toCome passed left)
    (hread : crossing.read = some next) :
    (∃ left, next.Reads id kind source events response toCome passed left) ∧
      next.hostWeight < crossing.hostWeight := by
  obtain ⟨c, others, hcontent, hreading, hnext⟩ := read_cases hread
  obtain ⟨-, hheld, hreply⟩ := isReading_iff.mp hreading
  have htext := hreads.text
  have hsplit := hreads.split
  simp only [hreply, Option.isNone_none, if_true, hcontent] at htext
  rw [hheld] at hsplit
  have hcontent' : crossing.frames.drop.content = others := by simp [CharPipe.drop, hcontent]
  rcases hnext with ⟨hc, hnext⟩ | ⟨hc, hnext⟩
  · rw [hnext]
    refine ⟨⟨left, { hreads with feed := ?_, text := ?_ }⟩, ?_⟩
    · simpa using ⟨hreads.feed, Ne.symm hc⟩
    · simpa [hreply, hcontent'] using htext
    · simp only [hostWeight, hcontent, hcontent', List.length_cons]
      omega
  · rw [hc, List.append_assoc, List.cons_append] at htext
    cases left with
    | cons event left =>
        rw [ServeLoop.outcomeText_cons, frameText, List.append_assoc] at htext
        obtain ⟨hone, hverdict⟩ := hlegible.event event (by simp [← hsplit])
        obtain ⟨hjudged, hrest⟩ := hreads.line_read hone htext
        rw [hnext, hjudged, hverdict, judge]
        refine ⟨⟨left, { hreads with
          split := ?_, feed := by simp, text := ?_, replied := .inl hreply }⟩, ?_⟩
        · simpa using hsplit
        · simpa [hreply, hcontent'] using hrest
        · simp only [hostWeight, hcontent, hcontent', hheld, List.length_cons, Option.toList_none,
            Option.toList_some, List.length_nil]
          omega
    | nil =>
        rw [ServeLoop.outcomeText_nil, frameText] at htext
        obtain ⟨hone, hverdict⟩ := hlegible.reply
        obtain ⟨hjudged, hrest⟩ := hreads.line_read hone htext
        rw [hnext, hjudged, hverdict, judge]
        refine ⟨⟨[], { hreads with
          feed := by simp, text := ?_, replied := .inr ⟨rfl, rfl, hheld⟩ }⟩, ?_⟩
        · simpa [hcontent'] using hrest
        · simp only [hostWeight, hcontent, hcontent', List.length_cons]
          omega

theorem deliver (hreads : crossing.Reads id kind source events response toCome passed left)
    (hdeliver : crossing.deliver = some next) :
    (∃ passed, next.Reads id kind source events response toCome passed left) ∧
      next.hostWeight < crossing.hostWeight := by
  obtain ⟨event, hheld, hnext⟩ := deliver_cases hdeliver
  have hsplit := hreads.split
  have hrel := hreads.sink
  have hreply : crossing.reply? = none := hreads.replied.resolve_right (by simp [hheld])
  rw [hheld] at hsplit
  rcases hnext with ⟨hnone, rfl⟩ | ⟨sink, hsink, hnext⟩
  · rw [hnone] at hrel
    cases hrel
    refine ⟨⟨passed ++ [event], { hreads with
      split := ?_, sink := ?_, replied := .inl hreply }⟩, ?_⟩
    · simpa using hsplit
    · rw [hnone]
      exact .none
    · simp only [hostWeight, hheld, Option.toList_none, Option.toList_some, List.length_cons,
        List.length_nil]
      omega
  · rw [hsink] at hrel
    cases hrel with
    | some hrel =>
        obtain ⟨hsteady, hsent⟩ := hrel
        rcases hnext with ⟨hclosed, -⟩ | ⟨-, rfl⟩
        · rw [hsteady.isOpen] at hclosed
          nomatch hclosed
        · refine ⟨⟨passed ++ [event], { hreads with
            split := ?_, sink := .some ⟨hsteady.send event, ?_⟩, replied := .inl hreply }⟩, ?_⟩
          · simpa using hsplit
          · simp [Channel.send, hsent]
          · simp only [hostWeight, hheld, hsink, Option.toList_none, Option.toList_some,
              Option.map_some, Option.getD_some, Channel.waiting_send hsteady.taken_le,
              List.length_append, List.length_cons, List.length_nil]
            omega

theorem receive (hreads : crossing.Reads id kind source events response toCome passed left)
    (hreceive : crossing.receive = some next) :
    next.Reads id kind source events response toCome passed left ∧
      next.hostWeight < crossing.hostWeight := by
  obtain ⟨later, hlater, rfl⟩ := Option.map_eq_some_iff.mp hreceive
  obtain ⟨sink, event, others, hsink, -, hwaiting, rfl⟩ := Channel.receive_cases hlater
  refine ⟨{ hreads with sink := ?_ }, ?_⟩
  · have hrel := hreads.sink
    rw [hsink] at hrel
    cases hrel with
    | some hrel => exact .some ⟨hrel.1.take hwaiting, hrel.2⟩
  · simp only [hostWeight, hsink, Option.map_some, Option.getD_some, Channel.waiting_take, hwaiting,
      List.tail_cons, List.length_cons]
    omega

/-- A host that holds an event waits for the receiver at most. -/
theorem exists_move_of_held [JsonWording]
    (hreads : crossing.Reads id kind source events response toCome passed left) {event : RunEvent}
    (hheld : crossing.held = some event) : ∃ next, crossing.Moves next := by
  have hrel := hreads.sink
  cases hsink : crossing.sink with
  | none => exact ⟨_, .deliver, by simp [step, Crossing.deliver, hheld, hsink]; rfl⟩
  | some sink =>
      rw [hsink] at hrel
      cases hrel with
      | some hrel =>
          obtain ⟨⟨hopen, hcapacity, -⟩, -⟩ := hrel
          cases hwaiting : sink.waiting with
          | nil =>
              have hroom := Channel.hasRoom_of_waiting_eq_nil hcapacity hwaiting
              exact ⟨_, .deliver, by
                simp [step, Crossing.deliver, hheld, hsink, hopen, hroom]; rfl⟩
          | cons event others =>
              have htaken := Channel.receive_of_waiting hopen hwaiting
              exact ⟨_, .receive, by simp [step, Crossing.receive, hsink, htaken]; rfl⟩

/-- A host that has the reply has passed on all events. -/
theorem outcome (hreads : crossing.Reads id kind source events response toCome passed left)
    {reply : Except WorkerError Response} (hreply : crossing.reply? = some reply) :
    reply = .ok response ∧ crossing.delivered = heardBy source events := by
  obtain ⟨hsome, rfl, hheld⟩ := hreads.replied.resolve_left (by simp [hreply])
  refine ⟨Option.some.inj (hreply.symm.trans hsome), ?_⟩
  have hsplit := hreads.split
  have hrel := hreads.sink
  rw [hheld, Option.toList_none, List.append_nil, List.append_nil] at hsplit
  rw [hsplit] at hrel
  unfold delivered heardBy
  generalize crossing.sink = sink at hrel ⊢
  cases hrel with
  | none => rfl
  | some hrel => exact hrel.2

end Reads

/-- A move of the host leaves the other end of the pipes alone. -/
structure KeepsChild (crossing next : Crossing) : Prop where
  nextId : next.nextId = crossing.nextId
  requests : next.requests = crossing.requests
  unwritten : next.unwritten = crossing.unwritten
  capacity : next.frames.capacity = crossing.frames.capacity
  child : next.child = crossing.child

theorem keepsChild_of_read [JsonWording] (hread : crossing.read = some next) :
    crossing.KeepsChild next := by
  obtain ⟨c, others, -, -, ⟨-, hnext⟩ | ⟨-, hnext⟩⟩ := read_cases hread
  · rw [hnext]
    exact ⟨rfl, rfl, rfl, rfl, rfl⟩
  · rw [hnext]
    cases verdict crossing.id crossing.kind (endedLine crossing.line) <;>
      exact ⟨rfl, rfl, rfl, rfl, rfl⟩

theorem keepsChild_of_deliver (hdeliver : crossing.deliver = some next) :
    crossing.KeepsChild next := by
  obtain ⟨event, -, ⟨-, rfl⟩ | ⟨sink, -, ⟨-, rfl⟩ | ⟨-, rfl⟩⟩⟩ := deliver_cases hdeliver <;>
    exact ⟨rfl, rfl, rfl, rfl, rfl⟩

theorem keepsChild_of_receive (hreceive : crossing.receive = some next) :
    crossing.KeepsChild next := by
  obtain ⟨later, -, rfl⟩ := Option.map_eq_some_iff.mp hreceive
  exact ⟨rfl, rfl, rfl, rfl, rfl⟩

/-- A call that nobody disturbs over a link: both sides are somewhere on the course of the
outcome. -/
structure OnCourse (worker : LocalWorker) (id : Nat) (request : Request) (source : Option Channel)
    (events : List RunEvent) (ending : Ending) (response : Response)
    (crossing : Crossing) : Prop where
  nextId : crossing.nextId = id + 1
  requestsCapacity : 0 < crossing.requests.capacity
  framesCapacity : 0 < crossing.frames.capacity
  sides : ∃ toCome passed left,
    crossing.Reads id request.kind source events response toCome passed left ∧
      ServeLoop.Serves worker id request events ending response crossing.child
        (crossing.requests.content ++ crossing.unwritten) toCome

/-- The weight of what has still to happen: first of the request on its way, then of the rest. -/
def weight (response : Response) (crossing : Crossing) : Nat × Nat :=
  (2 * crossing.unwritten.length + crossing.requests.content.length,
    crossing.child.weight response + crossing.hostWeight)

theorem lighter_of_request {response : Response}
    (hrequest : 2 * next.unwritten.length + next.requests.content.length <
      2 * crossing.unwritten.length + crossing.requests.content.length) :
    Prod.Lex (· < ·) (· < ·) (next.weight response) (crossing.weight response) :=
  .left _ _ hrequest

theorem lighter_of_rest {response : Response} (hunwritten : next.unwritten = crossing.unwritten)
    (hrequests : next.requests = crossing.requests)
    (hrest : next.child.weight response + next.hostWeight <
      crossing.child.weight response + crossing.hostWeight) :
    Prod.Lex (· < ·) (· < ·) (next.weight response) (crossing.weight response) := by
  rw [weight, weight, hunwritten, hrequests]
  exact .right _ hrest

namespace OnCourse

variable {worker : LocalWorker} {id : Nat} {request : Request} {source : Option Channel}
  {events : List RunEvent} {ending : Ending} {response : Response}

theorem host (hcrossing : crossing.OnCourse worker id request source events ending response)
    (hkeeps : crossing.KeepsChild next)
    (hhost : ∀ toCome passed left,
      crossing.Reads id request.kind source events response toCome passed left →
        (∃ passed left, next.Reads id request.kind source events response toCome passed left) ∧
          next.hostWeight < crossing.hostWeight) :
    next.OnCourse worker id request source events ending response ∧
      Prod.Lex (· < ·) (· < ·) (next.weight response) (crossing.weight response) := by
  obtain ⟨toCome, passed, left, hreads, hserves⟩ := hcrossing.sides
  obtain ⟨⟨passed, left, hnext⟩, hlighter⟩ := hhost toCome passed left hreads
  refine ⟨⟨hkeeps.nextId ▸ hcrossing.nextId, hkeeps.requests ▸ hcrossing.requestsCapacity,
    hkeeps.capacity ▸ hcrossing.framesCapacity, toCome, passed, left, hnext, ?_⟩,
    lighter_of_rest hkeeps.unwritten hkeeps.requests ?_⟩
  · rwa [hkeeps.child, hkeeps.requests, hkeeps.unwritten]
  · rw [hkeeps.child]
    exact Nat.add_lt_add_left hlighter _

theorem serving (hcrossing : crossing.OnCourse worker id request source events ending response)
    {child : ServeLoop}
    (hchild : ∀ incoming toCome,
      ServeLoop.Serves worker id request events ending response crossing.child incoming toCome →
        ServeLoop.Serves worker id request events ending response child incoming toCome ∧
          child.weight response < crossing.child.weight response) :
    { crossing with child }.OnCourse worker id request source events ending response ∧
      Prod.Lex (· < ·) (· < ·) ({ crossing with child }.weight response)
        (crossing.weight response) := by
  obtain ⟨toCome, passed, left, hreads, hserves⟩ := hcrossing.sides
  obtain ⟨hnext, hlighter⟩ := hchild _ _ hserves
  exact ⟨{ hcrossing with sides := ⟨toCome, passed, left, { hreads with }, hnext⟩ },
    lighter_of_rest rfl rfl (Nat.add_lt_add_right hlighter _)⟩

theorem send (hcrossing : crossing.OnCourse worker id request source events ending response)
    (hsend : crossing.send = some next) :
    next.OnCourse worker id request source events ending response ∧
      Prod.Lex (· < ·) (· < ·) (next.weight response) (crossing.weight response) := by
  obtain ⟨c, others, hunwritten, rfl⟩ := send_cases hsend
  obtain ⟨toCome, passed, left, hreads, hserves⟩ := hcrossing.sides
  refine ⟨{ hcrossing with sides := ⟨toCome, passed, left, { hreads with }, ?_⟩ },
    lighter_of_request ?_⟩
  · simpa [CharPipe.put, hunwritten] using hserves
  · simp only [CharPipe.put, hunwritten, List.length_append, List.length_cons, List.length_nil]
    omega

theorem childRead [JsonWording]
    (hcourse : ServeLoop.Course worker id request events ending response)
    (hcrossing : crossing.OnCourse worker id request source events ending response)
    (hread : crossing.childRead = some next) :
    next.OnCourse worker id request source events ending response ∧
      Prod.Lex (· < ·) (· < ·) (next.weight response) (crossing.weight response) := by
  obtain ⟨c, others, child, hcontent, hchild, rfl⟩ := childRead_cases hread
  obtain ⟨toCome, passed, left, hreads, hserves⟩ := hcrossing.sides
  rw [hcontent, List.cons_append] at hserves
  have hdropped : crossing.requests.drop.content = others := by simp [CharPipe.drop, hcontent]
  refine ⟨{ hcrossing with sides := ⟨toCome, passed, left, { hreads with }, ?_⟩ },
    lighter_of_request ?_⟩
  · rw [hdropped]
    exact hserves.read hcourse hchild
  · simp [hcontent, hdropped]

theorem childWrite (hcrossing : crossing.OnCourse worker id request source events ending response)
    (hwrite : crossing.childWrite = some next) :
    next.OnCourse worker id request source events ending response ∧
      Prod.Lex (· < ·) (· < ·) (next.weight response) (crossing.weight response) := by
  obtain ⟨c, others, hunwritten, rfl⟩ := childWrite_cases hwrite
  obtain ⟨toCome, passed, left, hreads, hserves⟩ := hcrossing.sides
  obtain ⟨further, rfl, hnext⟩ := hserves.write hunwritten
  refine ⟨{ hcrossing with
    sides := ⟨further, passed, left, { hreads with text := ?_ }, hnext⟩ },
    lighter_of_rest rfl rfl ?_⟩
  · simpa [CharPipe.put] using hreads.text
  · simp only [ServeLoop.weight, hostWeight, CharPipe.put, hunwritten, List.length_append,
      List.length_cons, List.length_nil]
    omega

/-- Every move keeps a call on its course and brings it nearer to its end. -/
theorem step [JsonWording] (hcourse : ServeLoop.Course worker id request events ending response)
    (hlegible : Legible id request.kind events response)
    (hcrossing : crossing.OnCourse worker id request source events ending response)
    (hmove : crossing.Moves next) :
    next.OnCourse worker id request source events ending response ∧
      Prod.Lex (· < ·) (· < ·) (next.weight response) (crossing.weight response) := by
  obtain ⟨move, hstep⟩ := hmove
  cases move with
  | send => exact hcrossing.send hstep
  | read =>
      refine hcrossing.host (keepsChild_of_read hstep) fun toCome passed left hreads => ?_
      obtain ⟨⟨left, hnext⟩, hlighter⟩ := hreads.read hlegible hstep
      exact ⟨⟨passed, left, hnext⟩, hlighter⟩
  | deliver =>
      refine hcrossing.host (keepsChild_of_deliver hstep) fun toCome passed left hreads => ?_
      obtain ⟨⟨passed, hnext⟩, hlighter⟩ := hreads.deliver hstep
      exact ⟨⟨passed, left, hnext⟩, hlighter⟩
  | receive =>
      refine hcrossing.host (keepsChild_of_receive hstep) fun toCome passed left hreads => ?_
      obtain ⟨hnext, hlighter⟩ := hreads.receive hstep
      exact ⟨⟨passed, left, hnext⟩, hlighter⟩
  | childRead => exact hcrossing.childRead hcourse hstep
  | childWrite => exact hcrossing.childWrite hstep
  | advance move =>
      obtain ⟨child, hchild, rfl⟩ := Option.map_eq_some_iff.mp hstep
      exact hcrossing.serving fun _ _ hserves => hserves.advance hchild
  | relay =>
      obtain ⟨child, hchild, rfl⟩ := Option.map_eq_some_iff.mp hstep
      exact hcrossing.serving fun _ _ hserves => hserves.relay hchild
  | answer =>
      obtain ⟨child, hchild, rfl⟩ := Option.map_eq_some_iff.mp hstep
      exact hcrossing.serving fun _ _ hserves => hserves.answer hcourse hchild

/-- Without a reply there is always a move: no side waits for another that waits for it. -/
theorem exists_move [JsonWording]
    (hcrossing : crossing.OnCourse worker id request source events ending response)
    (hreply : crossing.reply? = none) : ∃ next, crossing.Moves next := by
  obtain ⟨toCome, passed, left, hreads, hserves⟩ := hcrossing.sides
  cases hheld : crossing.held with
  | some event => exact hreads.exists_move_of_held hheld
  | none =>
      rcases hserves.moves_or_waits with ⟨c, rest, child, hincoming, hchild⟩ |
        ⟨c, rest, hunwritten⟩ | ⟨move, child, hchild⟩ | ⟨child, hchild⟩ | ⟨child, hchild⟩ | hdone
      · exact exists_move_of_incoming hcrossing.requestsCapacity hincoming hchild
      · have hsent := hserves.incoming_eq_nil (by simp [hunwritten])
        exact exists_move_of_unwritten hcrossing.framesCapacity hunwritten
          (isReading_iff.mpr ⟨(List.append_eq_nil_iff.mp hsent).2, hheld, hreply⟩)
      · exact ⟨_, .advance move, by simp [Crossing.step, hchild]; rfl⟩
      · exact ⟨_, .relay, by simp [Crossing.step, hchild]; rfl⟩
      · exact ⟨_, .answer, by simp [Crossing.step, hchild]; rfl⟩
      · have hsent := (hserves.isIdle hdone).1
        cases hcontent : crossing.frames.content with
        | nil =>
            have htext := hreads.text
            simp only [hcontent, hdone, hreply, List.append_nil, Option.isNone_none, if_true]
              at htext
            exact absurd (by simp [htext, ServeLoop.outcomeText, frameText]) hreads.feed
        | cons first others =>
            exact exists_read hcontent
              (isReading_iff.mpr ⟨(List.append_eq_nil_iff.mp hsent).2, hheld, hreply⟩)

/-- A call that has its reply leaves both ends of the pipes at rest. -/
theorem isAtRest (hcrossing : crossing.OnCourse worker id request source events ending response)
    {reply : Except WorkerError Response} (hreply : crossing.reply? = some reply) :
    crossing.toLink.IsAtRest worker := by
  obtain ⟨toCome, passed, left, hreads, hserves⟩ := hcrossing.sides
  have htext := hreads.text
  simp only [hreply, Option.isNone_some, Bool.false_eq_true, if_false, List.append_eq_nil_iff]
    at htext
  obtain ⟨hincoming, hidle⟩ := hserves.isIdle htext.2
  exact ⟨(List.append_eq_nil_iff.mp hincoming).1, htext.1.2, htext.1.1, hidle⟩

end OnCourse

section Call

variable {worker : LocalWorker} {request : Request} {source : Option Channel}
  {events : List RunEvent} {ending : Ending} {response : Response} {link : Link}

theorem onCourse_call (hrest : link.IsAtRest worker)
    (hrequests : 0 < link.requests.capacity) (hframes : 0 < link.frames.capacity)
    (hsource : ∀ channel ∈ source, channel.IsSteady) :
    (link.call request source).OnCourse worker link.nextId request source events ending
      response := by
  refine ⟨rfl, hrequests, hframes, _, [], events, ⟨rfl, rfl, rfl, ?_, ?_, ?_, .inl rfl⟩,
    .asked hrest.child.worker_eq hrest.child.current hrest.child.unwritten ?_ ?_⟩
  · cases source with
    | none => exact .none
    | some channel => exact .some ⟨hsource channel rfl, by simp⟩
  · simp [Link.call, hrest.line]
  · simp [Link.call, hrest.line, hrest.frames]
  · simp [Link.call, hrest.child.line]
  · simp [Link.call, hrest.child.line, hrest.requests]

/-- In whatever order the sides move, a call over a link at rest returns what the engine answers,
and delivers all events of the engine before; it leaves the link at rest. -/
theorem returns_call [JsonWording] (hrest : link.IsAtRest worker)
    (hrequests : 0 < link.requests.capacity) (hframes : 0 < link.frames.capacity)
    (hsource : ∀ channel ∈ source, channel.IsSteady)
    (hcourse : ServeLoop.Course worker link.nextId request events ending response)
    (hlegible : Legible link.nextId request.kind events response) :
    Returns Moves outcome? (link.call request source) (.ok response, heardBy source events) ∧
      ∀ crossing, Relation.ReflTransGen Moves (link.call request source) crossing →
        crossing.reply?.isSome = true →
          crossing.toLink.IsAtRest worker ∧ crossing.nextId = link.nextId + 1 := by
  have hstart : (link.call request source).OnCourse worker link.nextId request source events
    ending response := onCourse_call hrest hrequests hframes hsource
  refine ⟨.of_weight (WellFounded.prod_lex Nat.lt_wfRel.wf Nat.lt_wfRel.wf) (weight response)
    (fun crossing next hcrossing hmove => hcrossing.step hcourse hlegible hmove)
    (fun crossing hcrossing => ?_) hstart, fun crossing hrun hreply => ?_⟩
  · cases hreply : crossing.reply? with
    | none => exact .inr ⟨by simp [outcome?, hreply], hcrossing.exists_move hreply⟩
    | some reply =>
        obtain ⟨toCome, passed, left, hreads, -⟩ := hcrossing.sides
        obtain ⟨rfl, hdelivered⟩ := hreads.outcome hreply
        exact .inl (by simp [outcome?, hreply, hdelivered])
  · have hcrossing := Returns.invariant_of_run
      (fun crossing next hcrossing hmove => (hcrossing.step hcourse hlegible hmove).1) hstart hrun
    obtain ⟨reply, hreply⟩ := Option.isSome_iff_exists.mp hreply
    exact ⟨hcrossing.isAtRest hreply, hcrossing.nextId⟩

end Call

end Crossing

end GateBench.Worker
