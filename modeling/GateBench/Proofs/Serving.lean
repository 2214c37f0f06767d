import GateBench.Proofs.FrameCodec
import GateBench.Proofs.ServeLoop
import Mathlib.Data.List.DropRight
import Mathlib.Data.List.Forall2

/-!
Sessions of a worker: its loop from the first character that comes in to the last that is written.
Whatever comes first, the engine, the forwarding of its events or the writing, every line is
answered by the same frames, and the answers stand in the order of the lines.
-/

namespace GateBench

/-- An engine that ends every request with a response, as long as it is heard and told to go on. -/
def Engine.Responds (engine : Engine) : Prop :=
  ∀ request, ∃ response, (engine.serve request).fullResult = .ok response

namespace Worker

open Message

/-! ### What answers a line -/

/-- Nothing is left of a text by trimming exactly if all of it is blank. -/
theorem isEmpty_trim_iff {text : String} :
    (Text.trim text).isEmpty = true ↔ ∀ c ∈ text.toList, Text.isBlank c = true := by
  rw [Text.trim, String.isEmpty_iff, String.ofList_eq_empty_iff, Text.trimChars,
    Text.trimEndChars, List.reverse_eq_nil_iff, List.dropWhile_eq_nil_iff]
  simp only [List.mem_reverse]
  rw [← List.dropWhile_eq_nil_iff, List.dropWhile_idempotent, List.dropWhile_eq_nil_iff]

/-- A reply that a worker writes answers the request. -/
theorem answers_toldOutcome_acceptReply (kind : RequestKind) (response : Response) :
    (toldOutcome (acceptReply kind response)).answers kind = true := by
  by_cases hanswers : response.answers kind = true
  · rw [acceptReply_eq hanswers]
    exact hanswers
  · have hrefused : acceptReply kind response =
        .error (.protocol (.unexpectedReply kind response.kindText)) := by
      simp [acceptReply, Response.expectKind, hanswers, Except.mapError]
    rw [hrefused]
    rfl

/-- An outcome holds one reply. -/
theorem countP_isReply_outcome (events : List RunEvent) (id : Nat) (response : Response) :
    (events.map (Outbound.event id) ++ [Outbound.reply id response]).countP isReply = 1 := by
  simp [List.countP_eq_zero, isReply]

section Lines

variable [JsonWording]

/-- How a line is answered: not at all if it is blank, or if it is no request and states no id; by a
fault under its id if it is no request but states one; and a request by the events that the engine
tells for it, each once and in their order, and by a reply that answers its kind. -/
inductive Answers (engine : Engine) (line : String) : List Outbound → Prop where
  | blank (hblank : ∀ c ∈ line.toList, Text.isBlank c = true) : Answers engine line []
  | unidentified {error : FrameError} (hfilled : ∃ c ∈ line.toList, Text.isBlank c = false)
      (hdecoded : decodeLine Inbound.decode line = .error error) (hid : statedId? line = none) :
      Answers engine line []
  | invalid {id : Nat} {error : FrameError} {fault : WorkerFault}
      (hfilled : ∃ c ∈ line.toList, Text.isBlank c = false)
      (hdecoded : decodeLine Inbound.decode line = .error error)
      (hid : statedId? line = some id) (hkind : fault.kind = .invalidRequest) :
      Answers engine line [.reply id (.failed fault)]
  | request {id : Nat} {request : Request} {response : Response}
      (hdecoded : decodeLine Inbound.decode line = .ok ⟨id, request⟩)
      (hanswers : response.answers request.kind = true) :
      Answers engine line
        ((engine.serve request).fullEvents.map (.event id) ++ [.reply id response])

/-- Only blank lines count as empty. -/
theorem decodeLine_eq_empty_iff {α : Type} {decoder : Json.Decoder α} {line : String} :
    decodeLine decoder line = .error .empty ↔ ∀ c ∈ line.toList, Text.isBlank c = true := by
  rw [← isEmpty_trim_iff]
  unfold decodeLine
  dsimp only
  split_ifs with hblank
  · simp [hblank]
  · split <;> simp [hblank]

variable {engine : Engine} {worker : LocalWorker}

/-- The frames of a request whose engine ends in a response. -/
theorem serveLine_request {line : String} {id : Nat} {request : Request} {response : Response}
    (hwilling : worker.isStopped = false)
    (hresult : (worker.engine.serve request).fullResult = .ok response)
    (hmeaning : LineMeaning.ofLine line = .request ⟨id, request⟩) :
    serveLine worker line =
      ((worker.engine.serve request).fullEvents.map (.event id) ++
        [.reply id (toldOutcome (acceptReply request.kind response))], worker) := by
  simp only [serveLine, hmeaning, LocalWorker.call_eq hwilling, hresult, LocalWorker.answer,
    LocalOutcome.frames]

/-- Serving a line leaves the worker as it was. -/
theorem serveLine_worker (hwilling : worker.isStopped = false) (line : String) :
    (serveLine worker line).2 = worker := by
  unfold serveLine
  split
  · rfl
  · rfl
  · rw [LocalWorker.call_eq hwilling]

/-- The frames that a worker writes for lines. -/
def framesFor (worker : LocalWorker) (lines : List String) : List Outbound :=
  lines.flatMap fun line => (serveLine worker line).1

@[simp]
theorem framesFor_nil (worker : LocalWorker) : framesFor worker [] = [] := rfl

@[simp]
theorem framesFor_cons (worker : LocalWorker) (line : String) (lines : List String) :
    framesFor worker (line :: lines) = (serveLine worker line).1 ++ framesFor worker lines := rfl

/-- Lines are served one after the other, and every reply is counted. -/
theorem serveFrom_eq (hwilling : worker.isStopped = false) (lines : List String)
    (written : Nat) :
    serveFrom worker written (lines.map .ok) =
      ⟨framesFor worker lines, .ok (written + (framesFor worker lines).countP isReply)⟩ := by
  induction lines generalizing written with
  | nil => rfl
  | cons line others ih =>
      have hline : serveLine worker line = ((serveLine worker line).1, worker) :=
        Prod.ext rfl (serveLine_worker hwilling line)
      rw [List.map_cons, serveFrom, hline]
      simp [ih, Nat.add_assoc]

/-- A line is answered as its meaning asks for. -/
theorem answers_serveLine (hresponds : engine.Responds) (line : String) :
    Answers engine line (serveLine { engine } line).1 := by
  by_cases hblank : ∀ c ∈ line.toList, Text.isBlank c = true
  · have hmeaning : LineMeaning.ofLine line = .nothing := by
      rw [LineMeaning.ofLine, decodeLine_eq_empty_iff.mpr hblank]
    simpa only [serveLine, hmeaning] using Answers.blank hblank
  · have hfilled : ∃ c ∈ line.toList, Text.isBlank c = false := by simpa using hblank
    have hnonempty : decodeLine Inbound.decode line ≠ .error .empty :=
      mt decodeLine_eq_empty_iff.mp hblank
    cases hdecoded : decodeLine Inbound.decode line with
    | ok frame =>
        obtain ⟨id, request⟩ := frame
        obtain ⟨response, hresult⟩ := hresponds request
        have hmeaning : LineMeaning.ofLine line = .request ⟨id, request⟩ := by
          rw [LineMeaning.ofLine, hdecoded]
        rw [serveLine_request rfl hresult hmeaning]
        exact .request hdecoded (answers_toldOutcome_acceptReply request.kind response)
    | error error =>
        have hmeaning : LineMeaning.ofLine line =
            (statedId? line).elim .nothing fun id => .invalid id error := by
          rw [LineMeaning.ofLine, hdecoded]
          cases error with
          | empty => exact absurd hdecoded hnonempty
          | malformed | idMismatch | unexpectedReply => rfl
        cases hid : statedId? line with
        | none =>
            simp only [hid, Option.elim_none] at hmeaning
            simp only [serveLine, hmeaning]
            exact .unidentified hfilled hdecoded hid
        | some id =>
            simp only [hid, Option.elim_some] at hmeaning
            simp only [serveLine, hmeaning]
            exact .invalid hfilled hdecoded hid rfl

end Lines

/-! ### Sessions -/

/-- The characters that frames are written as. -/
def frameTexts (frames : List Outbound) : List Char :=
  frames.flatMap frameText

theorem frameTexts_append (frames others : List Outbound) :
    frameTexts (frames ++ others) = frameTexts frames ++ frameTexts others :=
  List.flatMap_append

theorem framesText_toList (frames : List Outbound) :
    (framesText frames).toList = frameTexts frames := by
  have htext : frameText = fun frame => frame.line.toList ++ ['\n'] := rfl
  simp [framesText, frameTexts, htext, String.toList_join, List.flatMap_map]

theorem frameTexts_outcome (id : Nat) (events : List RunEvent) (response : Response) :
    frameTexts (events.map (.event id) ++ [.reply id response]) =
      ServeLoop.outcomeText id events response := by
  simp [frameTexts, ServeLoop.outcomeText, List.flatMap_map]

namespace ServeLoop

variable {loop : ServeLoop} {worker : LocalWorker}

/-- The reply that is due for the request being served. -/
def due (loop : ServeLoop) : Response :=
  match loop.current with
  | none => runtimeFault .terminated
  | some (_, call) => toldOutcome (LocalWorker.answer call.kind call.engine.fullResult)

theorem Busy.due_eq {id : Nat} {kind : RequestKind} {events : List RunEvent}
    {ending : Ending} {taken : Nat}
    (hbusy : loop.Busy worker id kind events ending taken) :
    loop.due = toldOutcome (LocalWorker.answer kind ending) := by
  obtain ⟨call, hcurrent, hcall, -⟩ := hbusy.call
  simp [due, hcurrent, hcall.kind_eq, hcall.result]

theorem weight_of_current_eq_none (hcurrent : loop.current = none) (written : Response) :
    loop.weight written = 4 * loop.unwritten.length := by
  simp [weight, hcurrent]

theorem serve_line [JsonWording] (loop : ServeLoop) (line : String) :
    (loop.serve line).line = loop.line := by
  unfold serve
  split
  · rfl
  · rfl
  · split_ifs <;> rfl

end ServeLoop

/-- A loop with the characters that have still to come in, after which the input ends, and those
that were written. -/
structure Session where
  loop : ServeLoop
  input : List Char
  output : List Char := []

/-- A move of a session: the loop reads the next character, or the line that the input ends with, or
makes a move of its own; or the next character is written. -/
inductive Session.Move where
  | read
  | close
  | advance (move : Worker.Move)
  | relay
  | answer
  | write

namespace Session

variable [JsonWording] {session next : Session}

/-- The session of an engine with a text to read. -/
def start (engine : Engine) (text : String) : Session where
  loop := { worker := { engine } }
  input := text.toList

/-- Read the next character. -/
def read (session : Session) : Option Session :=
  match session.input with
  | [] => none
  | c :: rest => (session.loop.read c).map fun loop => { session with loop, input := rest }

/-- Serve what stands behind the last line feed, at the end of the input. -/
def close (session : Session) : Option Session :=
  if session.input = [] ∧ session.loop.line ≠ [] ∧ session.loop.current.isNone ∧
      session.loop.unwritten = [] then
    some { session with
      loop := { session.loop with line := [] }.serve (String.ofList session.loop.line) }
  else none

/-- Write the next character. -/
def write (session : Session) : Option Session :=
  match session.loop.unwritten with
  | [] => none
  | c :: rest =>
    some { session with
      loop := { session.loop with unwritten := rest }, output := session.output ++ [c] }

/-- The session after a move, if the move can be made. -/
def step (session : Session) : Session.Move → Option Session
  | .read => session.read
  | .close => session.close
  | .advance move => (session.loop.advance move).map fun loop => { session with loop }
  | .relay => session.loop.relay.map fun loop => { session with loop }
  | .answer => session.loop.answer.map fun loop => { session with loop }
  | .write => session.write

/-- A move of one of the sides. -/
def Moves (session next : Session) : Prop :=
  ∃ move, session.step move = some next

/-- What a session comes to, once the input has ended and nothing is left to do: what was written,
and how many replies were counted. -/
def outcome? (session : Session) : Option (List Char × Nat) :=
  if session.input = [] ∧ session.loop.line = [] ∧ session.loop.current.isNone ∧
      session.loop.unwritten = [] then
    some (session.output, session.loop.answered)
  else none

/-! ### What a move can do -/

theorem read_cases (hread : session.read = some next) :
    ∃ c rest loop, session.input = c :: rest ∧ session.loop.read c = some loop ∧
      next = { session with loop, input := rest } := by
  unfold read at hread
  split at hread
  · cases hread
  · rename_i c rest hinput
    obtain ⟨loop, hloop, rfl⟩ := Option.map_eq_some_iff.mp hread
    exact ⟨c, rest, loop, hinput, hloop, rfl⟩

theorem close_cases (hclose : session.close = some next) :
    session.input = [] ∧ session.loop.line ≠ [] ∧ session.loop.current = none ∧
      session.loop.unwritten = [] ∧
      next = { session with
        loop := { session.loop with line := [] }.serve (String.ofList session.loop.line) } := by
  unfold close at hclose
  split_ifs at hclose with hended
  obtain ⟨hinput, hline, hcurrent, hunwritten⟩ := hended
  exact ⟨hinput, hline, Option.isNone_iff_eq_none.mp hcurrent, hunwritten,
    (Option.some.inj hclose).symm⟩

omit [JsonWording] in
theorem write_cases (hwrite : session.write = some next) :
    ∃ c rest, session.loop.unwritten = c :: rest ∧
      next = { session with
        loop := { session.loop with unwritten := rest }, output := session.output ++ [c] } := by
  unfold write at hwrite
  split at hwrite
  · cases hwrite
  · rename_i c rest hunwritten
    exact ⟨c, rest, hunwritten, (Option.some.inj hwrite).symm⟩

/-! ### The course of a session -/

/-- The frames that a worker writes for the lines of characters. -/
def unserved (worker : LocalWorker) (chars : List Char) : List Outbound :=
  framesFor worker (Text.linesOf (String.ofList chars))

theorem unserved_nil (worker : LocalWorker) : unserved worker [] = [] := by
  simp [unserved, Text.linesOf, Text.splitLines, Text.splitLinesFrom]

theorem unserved_feed (worker : LocalWorker) {line : List Char} (hline : '\n' ∉ line)
    (rest : List Char) :
    unserved worker (line ++ '\n' :: rest) =
      (serveLine worker (endedLine line)).1 ++ unserved worker rest := by
  simp [unserved, Text.linesOf, Text.splitLines_feed hline, endedLine]

theorem unserved_last (worker : LocalWorker) {line : List Char} (hline : '\n' ∉ line)
    (hne : line ≠ []) : unserved worker line = (serveLine worker (String.ofList line)).1 := by
  simp [unserved, Text.linesOf, Text.splitLines_last hline hne]

/-- A session of a worker whose frames are `total` in the end: it reads a line, or it serves one.
What was written, what is being written, what is still to be written for the request being served,
and the answers to the lines that have not been served make up the whole. -/
inductive OnCourse (worker : LocalWorker) (total : List Outbound) : Session → Prop where
  | reading {session : Session} (hworker : session.loop.worker = worker)
      (hcurrent : session.loop.current = none) (hfeed : '\n' ∉ session.loop.line)
      (htext : session.output ++ session.loop.unwritten ++
        frameTexts (unserved worker (session.loop.line ++ session.input)) = frameTexts total)
      (hcount : session.loop.answered +
        (unserved worker (session.loop.line ++ session.input)).countP isReply =
          total.countP isReply) :
      OnCourse worker total session
  | serving {session : Session} {id : Nat} {kind : RequestKind} {events : List RunEvent}
      {ending : Ending} (taken : Nat)
      (hbusy : session.loop.Busy worker id kind events ending taken)
      (htext : session.output ++ session.loop.unwritten ++
        (ServeLoop.outcomeText id (events.drop taken)
            (toldOutcome (LocalWorker.answer kind ending)) ++
          frameTexts (unserved worker session.input)) = frameTexts total)
      (hcount : session.loop.answered + 1 + (unserved worker session.input).countP isReply =
        total.countP isReply) :
      OnCourse worker total session

/-- The weight of what a session has still to do: first of the lines to be read, then of the request
being served. -/
def weight (session : Session) : Nat × Nat :=
  (2 * session.input.length + session.loop.line.length, session.loop.weight session.loop.due)

variable {worker : LocalWorker} {total : List Outbound}

/-- Serving a line keeps a session on its course. -/
theorem onCourse_serve (session : Session) (hresponds : worker.engine.Responds)
    (hwilling : worker.isStopped = false) (hworker : session.loop.worker = worker)
    (hcurrent : session.loop.current = none) (hunwritten : session.loop.unwritten = [])
    (hempty : session.loop.line = []) (line : String)
    (htext : session.output ++
      frameTexts ((serveLine worker line).1 ++ unserved worker session.input) = frameTexts total)
    (hcount : session.loop.answered +
      ((serveLine worker line).1 ++ unserved worker session.input).countP isReply =
        total.countP isReply) :
    OnCourse worker total { session with loop := session.loop.serve line } := by
  rw [frameTexts_append] at htext
  rw [List.countP_append] at hcount
  cases hmeaning : LineMeaning.ofLine line with
  | nothing =>
      have hserve : session.loop.serve line = session.loop := by simp [ServeLoop.serve, hmeaning]
      simp only [serveLine, hmeaning] at htext hcount
      rw [hserve]
      refine .reading hworker hcurrent (by simp [hempty]) ?_ ?_
      · simpa [hunwritten, hempty, frameTexts] using htext
      · simpa [hempty] using hcount
  | invalid id error =>
      have hserve : session.loop.serve line = session.loop.refuse id (invalidRequest error) := by
        simp [ServeLoop.serve, hmeaning]
      simp only [serveLine, hmeaning] at htext hcount
      rw [hserve]
      refine .reading hworker rfl (by simp [ServeLoop.refuse, hempty]) ?_ ?_
      · simpa [ServeLoop.refuse, hempty, frameTexts] using htext
      · simpa [ServeLoop.refuse, hempty, isReply, Nat.add_assoc] using hcount
  | request frame =>
      obtain ⟨id, request⟩ := frame
      obtain ⟨response, hresult⟩ := hresponds request
      have hbusy := ServeLoop.Busy.start session.loop id hworker hwilling hempty hresult
        (by rintro _ ⟨⟩)
      have hserve : session.loop.serve line = { session.loop with
          current := some (id, LocalCall.start session.loop.worker request defaultEventBuffer
            (some ServeLoop.sink)) } := by
        simp [ServeLoop.serve, hmeaning, hworker, hwilling]
      rw [serveLine_request hwilling hresult hmeaning] at htext hcount
      rw [hserve]
      refine .serving 0 hbusy ?_ ?_
      · simpa [hunwritten, frameTexts_outcome, LocalWorker.answer] using htext
      · simpa only [countP_isReply_outcome, ← Nat.add_assoc] using hcount

namespace OnCourse

/-- A loop that reads is not serving a request. -/
theorem reads (hsession : session.OnCourse worker total) (hcurrent : session.loop.current = none) :
    session.loop.worker = worker ∧ '\n' ∉ session.loop.line ∧
      session.output ++ session.loop.unwritten ++
        frameTexts (unserved worker (session.loop.line ++ session.input)) = frameTexts total ∧
      session.loop.answered +
        (unserved worker (session.loop.line ++ session.input)).countP isReply =
          total.countP isReply := by
  cases hsession with
  | reading hworker _ hfeed htext hcount => exact ⟨hworker, hfeed, htext, hcount⟩
  | serving taken hbusy =>
      obtain ⟨call, hsome, -⟩ := hbusy.call
      rw [hcurrent] at hsome
      nomatch hsome

theorem read (hresponds : worker.engine.Responds) (hwilling : worker.isStopped = false)
    (hsession : session.OnCourse worker total) (hread : session.read = some next) :
    next.OnCourse worker total ∧ Prod.Lex (· < ·) (· < ·) next.weight session.weight := by
  obtain ⟨c, rest, loop, hinput, hloop, rfl⟩ := read_cases hread
  obtain ⟨hcurrent, hunwritten, hnext⟩ := ServeLoop.read_cases hloop
  rcases hnext with ⟨hc, hnext⟩ | ⟨hc, hnext⟩ <;> rw [hnext]
  -- the line is complete: its frames are the first of those that were still to come
  · subst hc
    obtain ⟨hworker, hfeed, htext, hcount⟩ := hsession.reads hcurrent
    rw [hinput, unserved_feed worker hfeed] at htext hcount
    refine ⟨?_, .left _ _ ?_⟩
    · rw [hunwritten, List.append_nil] at htext
      exact onCourse_serve
        { session with loop := { session.loop with line := [] }, input := rest }
        hresponds hwilling hworker hcurrent hunwritten rfl _ htext hcount
    · simp only [ServeLoop.serve_line, hinput, List.length_cons, List.length_nil]
      omega
  · obtain ⟨hworker, hfeed, htext, hcount⟩ := hsession.reads hcurrent
    refine ⟨.reading hworker hcurrent (by simpa using ⟨hfeed, Ne.symm hc⟩) ?_ ?_, .left _ _ ?_⟩
    · simpa [hinput] using htext
    · simpa [hinput] using hcount
    · simp only [hinput, List.length_cons, List.length_append, List.length_nil]
      omega

theorem close (hresponds : worker.engine.Responds) (hwilling : worker.isStopped = false)
    (hsession : session.OnCourse worker total) (hclose : session.close = some next) :
    next.OnCourse worker total ∧ Prod.Lex (· < ·) (· < ·) next.weight session.weight := by
  obtain ⟨hinput, hline, hcurrent, hunwritten, rfl⟩ := close_cases hclose
  obtain ⟨hworker, hfeed, htext, hcount⟩ := hsession.reads hcurrent
  rw [hinput, List.append_nil, unserved_last worker hfeed hline] at htext hcount
  refine ⟨?_, .left _ _ ?_⟩
  · rw [hunwritten, List.append_nil] at htext
    refine onCourse_serve { session with loop := { session.loop with line := [] } }
      hresponds hwilling hworker hcurrent hunwritten rfl _ ?_ ?_
    · simpa only [hinput, unserved_nil, List.append_nil] using htext
    · simpa only [hinput, unserved_nil, List.append_nil] using hcount
  · have hlength := List.length_pos_of_ne_nil hline
    simpa [ServeLoop.serve_line] using hlength

/-- A session whose loop has a call is serving a request. -/
theorem serves (hsession : session.OnCourse worker total) {id : Nat} {call : LocalCall}
    (hcurrent : session.loop.current = some (id, call)) :
    ∃ id kind events ending taken,
      session.loop.Busy worker id kind events ending taken ∧
      session.output ++ session.loop.unwritten ++
        (ServeLoop.outcomeText id (events.drop taken)
            (toldOutcome (LocalWorker.answer kind ending)) ++
          frameTexts (unserved worker session.input)) = frameTexts total ∧
      session.loop.answered + 1 + (unserved worker session.input).countP isReply =
        total.countP isReply := by
  cases hsession with
  | reading _ hnone =>
      rw [hnone] at hcurrent
      nomatch hcurrent
  | serving taken hbusy htext hcount => exact ⟨_, _, _, _, taken, hbusy, htext, hcount⟩

theorem advance (hsession : session.OnCourse worker total) {move : Worker.Move} {loop : ServeLoop}
    (hadvance : session.loop.advance move = some loop) :
    { session with loop }.OnCourse worker total ∧
      Prod.Lex (· < ·) (· < ·) { session with loop }.weight session.weight := by
  obtain ⟨_, _, _, hcurrent, -⟩ := ServeLoop.advance_cases hadvance
  obtain ⟨id, kind, events, ending, taken, hbusy, htext, hcount⟩ := hsession.serves hcurrent
  obtain ⟨hnext, hunwritten, hanswered, hlighter⟩ := hbusy.advance hadvance
    (toldOutcome (LocalWorker.answer kind ending))
  refine ⟨.serving taken hnext (by simpa only [hunwritten] using htext)
    (by simpa only [hanswered] using hcount), ?_⟩
  simp only [weight, hbusy.due_eq, hnext.due_eq, hbusy.line, hnext.line]
  exact .right _ hlighter

theorem relay (hsession : session.OnCourse worker total) {loop : ServeLoop}
    (hrelay : session.loop.relay = some loop) :
    { session with loop }.OnCourse worker total ∧
      Prod.Lex (· < ·) (· < ·) { session with loop }.weight session.weight := by
  obtain ⟨_, _, _, _, _, hcurrent, -⟩ := ServeLoop.relay_cases hrelay
  obtain ⟨id, kind, events, ending, taken, hbusy, htext, hcount⟩ := hsession.serves hcurrent
  obtain ⟨hnext, hunwritten, ⟨event, hfirst, hframe⟩, hanswered, hlighter⟩ :=
    hbusy.relay hrelay (toldOutcome (LocalWorker.answer kind ending))
  refine ⟨.serving (taken + 1) hnext ?_ (by simpa only [hanswered] using hcount), ?_⟩
  · simpa [hunwritten, hfirst, hframe] using htext
  · simp only [weight, hbusy.due_eq, hnext.due_eq, hbusy.line, hnext.line]
    exact .right _ hlighter

theorem answer (hwilling : worker.isStopped = false) (hsession : session.OnCourse worker total)
    {loop : ServeLoop} (hanswer : session.loop.answer = some loop) :
    { session with loop }.OnCourse worker total ∧
      Prod.Lex (· < ·) (· < ·) { session with loop }.weight session.weight := by
  obtain ⟨_, _, _, hcurrent, -⟩ := ServeLoop.answer_cases hanswer
  obtain ⟨id, kind, events, ending, taken, hbusy, htext, hcount⟩ := hsession.serves hcurrent
  obtain ⟨hunwritten, hnone, rfl, hlighter⟩ := hbusy.answer hwilling hanswer
  refine ⟨.reading rfl rfl (by simp [ServeLoop.refuse, hbusy.line]) ?_ ?_, ?_⟩
  · simpa [hunwritten, hnone, ServeLoop.refuse, hbusy.line] using htext
  · simpa [ServeLoop.refuse, hbusy.line] using hcount
  · rw [ServeLoop.weight_of_current_eq_none rfl] at hlighter
    simp only [weight, hbusy.due_eq]
    rw [ServeLoop.weight_of_current_eq_none rfl]
    exact .right _ hlighter

theorem write (hsession : session.OnCourse worker total) (hwrite : session.write = some next) :
    next.OnCourse worker total ∧ Prod.Lex (· < ·) (· < ·) next.weight session.weight := by
  obtain ⟨c, rest, hunwritten, rfl⟩ := write_cases hwrite
  refine ⟨?_, .right _ ?_⟩
  · cases hsession with
    | reading hworker hcurrent hfeed htext hcount =>
        exact .reading hworker hcurrent hfeed (by simpa [hunwritten] using htext) hcount
    | serving taken hbusy htext hcount =>
        exact .serving taken ⟨hbusy.worker_eq, hbusy.line, hbusy.call⟩
          (by simpa [hunwritten] using htext) hcount
  · change ServeLoop.weight session.loop.due _ < _
    simp [ServeLoop.weight, hunwritten]

/-- Every move keeps a session on its course and brings it nearer to its end. -/
theorem step (hresponds : worker.engine.Responds) (hwilling : worker.isStopped = false)
    (hsession : session.OnCourse worker total) (hmove : session.Moves next) :
    next.OnCourse worker total ∧ Prod.Lex (· < ·) (· < ·) next.weight session.weight := by
  obtain ⟨move, hstep⟩ := hmove
  cases move with
  | read => exact hsession.read hresponds hwilling hstep
  | close => exact hsession.close hresponds hwilling hstep
  | write => exact hsession.write hstep
  | advance move =>
      obtain ⟨loop, hloop, rfl⟩ := Option.map_eq_some_iff.mp hstep
      exact hsession.advance hloop
  | relay =>
      obtain ⟨loop, hloop, rfl⟩ := Option.map_eq_some_iff.mp hstep
      exact hsession.relay hloop
  | answer =>
      obtain ⟨loop, hloop, rfl⟩ := Option.map_eq_some_iff.mp hstep
      exact hsession.answer hwilling hloop

theorem run (hresponds : worker.engine.Responds) (hwilling : worker.isStopped = false)
    (hsession : session.OnCourse worker total)
    (hrun : Relation.ReflTransGen Session.Moves session next) : next.OnCourse worker total :=
  Returns.invariant_of_run (fun _ _ hsession hmove => (hsession.step hresponds hwilling hmove).1)
    hsession hrun

/-- A session only ends with all frames written and all replies counted, and until then a move is
left. -/
theorem outcome_or_move (hsession : session.OnCourse worker total) :
    session.outcome? = some (frameTexts total, total.countP isReply) ∨
      session.outcome? = none ∧ ∃ next, session.Moves next := by
  -- what is being written goes first; without it, the loop serves or reads
  cases hunwritten : session.loop.unwritten with
  | cons c rest =>
      obtain ⟨written, hwritten⟩ : ∃ written, session.write = some written := by
        simp [Session.write, hunwritten]
      exact .inr ⟨by simp [outcome?, hunwritten], written, .write, hwritten⟩
  | nil =>
      cases hsession with
      | serving taken hbusy =>
          obtain ⟨call, hcurrent, -⟩ := hbusy.call
          refine .inr ⟨by simp [outcome?, hcurrent], ?_⟩
          rcases hbusy.exists_move hunwritten with ⟨move, loop, hloop⟩ | ⟨loop, hloop⟩ |
            ⟨loop, hloop⟩
          · exact ⟨_, .advance move, by simp [Session.step, hloop]; rfl⟩
          · exact ⟨_, .relay, by simp [Session.step, hloop]; rfl⟩
          · exact ⟨_, .answer, by simp [Session.step, hloop]; rfl⟩
      | reading hworker hcurrent hfeed htext hcount =>
          cases hinput : session.input with
          | cons c rest =>
              refine .inr ⟨by simp [outcome?, hinput], ?_⟩
              obtain ⟨loop, hloop⟩ : ∃ loop, session.loop.read c = some loop := by
                by_cases hc : c = '\n' <;> simp [ServeLoop.read, hcurrent, hunwritten, hc]
              exact ⟨_, .read, by simp [Session.step, Session.read, hinput, hloop]; rfl⟩
          | nil =>
              by_cases hline : session.loop.line = []
              · simp only [hinput, hline, hunwritten, List.append_nil, unserved_nil, frameTexts,
                  List.flatMap_nil, List.countP_nil, Nat.add_zero] at htext hcount
                refine .inl ?_
                simp [outcome?, hinput, hline, hcurrent, hunwritten, htext, hcount, frameTexts]
              · obtain ⟨served, hserved⟩ : ∃ served, session.close = some served := by
                  simp [Session.close, hinput, hline, hcurrent, hunwritten]
                exact .inr ⟨by simp [outcome?, hline], served, .close, hserved⟩

/-- A session on its course comes to write all its frames. -/
theorem returns (hresponds : worker.engine.Responds) (hwilling : worker.isStopped = false)
    (hsession : session.OnCourse worker total) :
    Returns Session.Moves Session.outcome? session
      ((framesText total).toList, total.countP isReply) := by
  rw [framesText_toList]
  exact .of_weight (WellFounded.prod_lex Nat.lt_wfRel.wf Nat.lt_wfRel.wf) Session.weight
    (fun session next hsession => hsession.step hresponds hwilling)
    (fun session hsession => hsession.outcome_or_move) hsession

/-- The engine of a request being served is told to go on whenever it asks, and is always heard. -/
theorem undisturbed (hsession : session.OnCourse worker total) {id : Nat} {call : LocalCall}
    (hcurrent : session.loop.current = some (id, call)) :
    call.cancelled = false ∧ ∀ told ∈ call.told, told.2 = true := by
  obtain ⟨_, _, _, _, _, hbusy, -⟩ := hsession.serves hcurrent
  obtain ⟨call', hcurrent', hcall, -⟩ := hbusy.call
  obtain ⟨-, rfl⟩ : _ ∧ call = call' := by simpa [hcurrent] using hcurrent'
  refine ⟨hcall.willing, ?_⟩
  simp [hcall.heard]

end OnCourse

theorem onCourse_start (engine : Engine) (text : String) :
    (start engine text).OnCourse { engine }
      (framesFor { engine } (Text.linesOf text)) := by
  refine .reading rfl rfl (by simp [start]) ?_ ?_ <;> simp [start, unserved]

end Session

/-! ### Schedules -/

/-- A call that has returned leaves what the request comes to. -/
theorem LocalCall.Undisturbed.outcome_eq {worker : LocalWorker} {request : Request}
    {ending : Ending} {call : LocalCall} (hwilling : worker.isStopped = false)
    (hresult : (worker.engine.serve request).fullResult = ending)
    (hcall : call.Undisturbed request.kind (some ServeLoop.sink)
      (worker.engine.serve request).fullEvents ending)
    {reply : Except WorkerError Response} (hreturned : call.returned? = some reply) :
    worker.call request true =
      ⟨call.delivered, reply, { worker with cancelled := call.cancelled }⟩ := by
  obtain ⟨rfl, -, hdelivered⟩ :=
    hcall.outcome_of_returned (LocalCall.returned?_eq_some_iff.mp hreturned)
  have hworker : { worker with cancelled := false } = worker := by
    rw [← LocalWorker.willing_of_not_stopped hwilling]
  rw [LocalWorker.call_eq hwilling, hresult, hdelivered, hcall.willing, hworker]
  rfl

/-- A request comes to the same by every schedule by which it returns. -/
theorem LocalWorker.callBy_eq {worker : LocalWorker} (hwilling : worker.isStopped = false)
    {request : Request} {response : Response}
    (hresult : (worker.engine.serve request).fullResult = .ok response)
    {schedule : List Worker.Move} {outcome : LocalOutcome}
    (hcall : worker.callBy schedule request = some outcome) :
    outcome = worker.call request true := by
  unfold callBy at hcall
  rw [if_neg (by simp [hwilling])] at hcall
  obtain ⟨reply, hreturned, rfl⟩ := Option.map_eq_some_iff.mp hcall
  have hsink : ∀ channel ∈ some ServeLoop.sink, channel.IsSteady := by
    rintro channel ⟨⟩
    exact ServeLoop.sink_isSteady
  have hstart := LocalCall.undisturbed_start (LocalWorker.willing_of_not_stopped hwilling) hresult
    nofun defaultEventBuffer hsink
  have hcourse := hstart.run (LocalCall.moves_of_run _ schedule)
  exact (hcourse.outcome_eq hwilling hresult hreturned).symm

/-- Serving by schedules comes to what serving comes to, if it ends. -/
theorem serveBy_eq [JsonWording] {worker : LocalWorker} (hresponds : worker.engine.Responds)
    (hwilling : worker.isStopped = false) {lines : List String} {written : Nat}
    {schedules : List (List Worker.Move)} {served : Served}
    (hserved : serveBy worker written schedules (lines.map .ok) = some served) :
    served = serveFrom worker written (lines.map .ok) := by
  induction lines generalizing written schedules served with
  | nil => exact (Option.some.inj hserved).symm
  | cons line others ih =>
      rw [List.map_cons, serveBy] at hserved
      rw [List.map_cons, serveFrom]
      cases hmeaning : LineMeaning.ofLine line with
      | nothing =>
          simp only [hmeaning] at hserved
          simp only [serveLine, hmeaning]
          simpa using ih hserved
      | invalid id error =>
          simp only [hmeaning] at hserved
          obtain ⟨later, hlater, hrest⟩ := Option.bind_eq_some_iff.mp hserved
          obtain rfl := Option.some.inj hrest
          simp only [serveLine, hmeaning]
          simp [ih hlater, isReply]
      | request frame =>
          obtain ⟨id, request⟩ := frame
          obtain ⟨response, hresult⟩ := hresponds request
          simp only [hmeaning] at hserved
          obtain ⟨schedule, -, hserved⟩ := Option.bind_eq_some_iff.mp hserved
          obtain ⟨outcome, hcall, hserved⟩ := Option.bind_eq_some_iff.mp hserved
          obtain ⟨later, hlater, hrest⟩ := Option.bind_eq_some_iff.mp hserved
          obtain rfl := Option.some.inj hrest
          -- by any schedule the request comes to what the engine says, and the worker is kept
          obtain rfl := LocalWorker.callBy_eq hwilling hresult hcall
          rw [LocalWorker.call_eq hwilling] at hlater ⊢
          rw [serveLine_request hwilling hresult hmeaning]
          simp only [ih hlater, LocalOutcome.frames, LocalWorker.answer, hresult,
            countP_isReply_outcome]

/-- Serving keeps the protocol, whatever the lines are and in whatever order the engine, the
forwarding of its events and the writing move: every line is answered as it asks for, the answers
are written in the order of the lines, and the replies among them are counted.  No engine is told
to stop on the way, so the events it tells are all that it has. -/
theorem serve_keeps_protocol [JsonWording] {engine : Engine} (hresponds : engine.Responds)
    (text : String) :
    ∃ answers : List (List Outbound),
      List.Forall₂ (Answers engine) (Text.linesOf text) answers ∧
      serve engine ((Text.linesOf text).map .ok) =
        ⟨answers.flatten, .ok (answers.flatten.countP isReply)⟩ ∧
      (∀ schedules served,
        serveBy { engine } 0 schedules ((Text.linesOf text).map .ok) = some served →
          served = ⟨answers.flatten, .ok (answers.flatten.countP isReply)⟩) ∧
      Returns Session.Moves Session.outcome? (Session.start engine text)
        ((framesText answers.flatten).toList, answers.flatten.countP isReply) ∧
      ∀ session, Relation.ReflTransGen Session.Moves (Session.start engine text) session →
        ∀ id call, session.loop.current = some (id, call) →
          call.cancelled = false ∧ ∀ told ∈ call.told, told.2 = true := by
  have hstart := Session.onCourse_start engine text
  have hflatten : framesFor { engine } (Text.linesOf text) =
      ((Text.linesOf text).map fun line => (serveLine { engine } line).1).flatten :=
    List.flatMap_def
  have hserve : serve engine ((Text.linesOf text).map .ok) =
      ⟨framesFor { engine } (Text.linesOf text),
        .ok ((framesFor { engine } (Text.linesOf text)).countP isReply)⟩ := by
    rw [serve, serveFrom_eq rfl, Nat.zero_add]
  rw [hflatten] at hstart hserve
  refine ⟨(Text.linesOf text).map fun line => (serveLine { engine } line).1, ?_, hserve, ?_, ?_, ?_⟩
  · exact List.forall₂_map_right_iff.mpr
      (List.forall₂_same.mpr fun line _ => answers_serveLine hresponds line)
  · intro schedules served hserved
    exact (serveBy_eq hresponds rfl hserved).trans hserve
  · exact hstart.returns hresponds rfl
  · intro session hrun id call hcurrent
    exact (hstart.run hresponds rfl hrun).undisturbed hcurrent

/-- An engine that tells one event for every request. -/
def oneEvent : Engine :=
  ⟨"one", fun _ => .tell ⟨"0", 0⟩ fun _ => .done (.ok (.runComplete 1))⟩

/-- A request for one shot. -/
def oneShot : Inbound :=
  ⟨8, .run [] none 1 .base⟩

/-- What states an id and no request. -/
def idAlone : Json :=
  .ofMembers [("id", .ofNat 7)]

theorem decodeLine_idAlone [JsonWording] :
    decodeLine Inbound.decode idAlone.compact =
      .error (.malformed (JsonWording.refusal Inbound.decode idAlone.compact)) := by
  have hplain : idAlone.isPlain := by decide
  rw [idAlone, decodeLine_compact _ hplain]
  rfl

theorem ofLine_idAlone [JsonWording] :
    LineMeaning.ofLine idAlone.compact =
      .invalid 7 (.malformed (JsonWording.refusal Inbound.decode idAlone.compact)) := by
  have hplain : idAlone.isPlain := by decide
  rw [LineMeaning.ofLine, decodeLine_idAlone, statedId?, Json.read?_compact hplain]
  rfl

/-- The text of a line without a request, a blank line and a request. -/
def mixedText : String :=
  String.join ([idAlone.compact, "", oneShot.line].map (· ++ "\n"))

/-- The words that refuse what states an id and no request. -/
local instance idAloneWording : JsonWording :=
  .always "missing field `request` at line 1 column 8"

theorem serve_keeps_protocol_mixed :
    oneEvent.Responds ∧
      Returns Session.Moves Session.outcome? (Session.start oneEvent mixedText)
        ((framesText
          [.reply 7 (invalidRequest (.malformed "missing field `request` at line 1 column 8")),
            .event 8 ⟨"0", 0⟩, .reply 8 (.runComplete 1)]).toList, 2) := by
  have hresponds : oneEvent.Responds := fun request => ⟨.runComplete 1, rfl⟩
  have hplain : idAlone.isPlain := by decide
  have hrange : oneShot.InRange := ⟨by decide, show 1 < UInt32.size by decide⟩
  have hblank : LineMeaning.ofLine "" = .nothing := by
    rw [LineMeaning.ofLine, decodeLine_eq_empty_iff.mpr (by simp)]
  have hrequest : LineMeaning.ofLine oneShot.line = .request oneShot := by
    rw [LineMeaning.ofLine, Inbound.decodeLine_line hrange]
  have hlines : Text.linesOf mixedText = [idAlone.compact, "", oneShot.line] := by
    apply Text.linesOf_unlines
    intro line hline
    simp only [List.mem_cons, List.not_mem_nil, or_false] at hline
    rcases hline with rfl | rfl | rfl
    · exact not_lineBreak_of_mem_compact hplain
    · exact ⟨by decide, by decide⟩
    · exact not_lineBreak_of_mem_compact (Inbound.carries hrange).plain
  obtain ⟨answers, -, hserve, -, hreturns, -⟩ := serve_keeps_protocol hresponds mixedText
  have hframes : answers.flatten =
      [.reply 7 (invalidRequest (.malformed "missing field `request` at line 1 column 8")),
        .event 8 ⟨"0", 0⟩, .reply 8 (.runComplete 1)] := by
    rw [hlines] at hserve
    simp only [serve, List.map_cons, List.map_nil, serveFrom, serveLine, ofLine_idAlone, hblank,
      hrequest] at hserve
    exact (congrArg Served.frames hserve).symm
  rw [hframes] at hreturns
  exact ⟨hresponds, hreturns⟩

end Worker

end GateBench
