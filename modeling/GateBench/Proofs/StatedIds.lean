import GateBench.Proofs.JsonSurroundings
import GateBench.Proofs.Serving

/-!
Lines that state an id.  A line is read twice: as a request, trimmed of all white space, where what
a request does not know is passed over; and, if it is none, for the id that it states, as it stands
and as a whole.  So a line that is no request is only answered if the object that states the id is
proper and has no other white space than JSON's around it.
-/

namespace GateBench

namespace Json

theorem mem_of_mem_named {members : List (Option String × Json)} {named : List (String × Json)}
    (hnamed : members.mapM (fun (name, value) => name.map fun name => (name, value)) = some named)
    {name : String} {value : Json} (hmem : (name, value) ∈ named) :
    (some name, value) ∈ members := by
  induction members generalizing named with
  | nil =>
      obtain rfl := Option.some.inj hnamed
      nomatch hmem
  | cons first others ih =>
      rw [List.mapM_cons] at hnamed
      obtain ⟨head, hhead, hnamed⟩ := Option.bind_eq_some_iff.mp hnamed
      obtain ⟨tail, htail, hnamed⟩ := Option.bind_eq_some_iff.mp hnamed
      obtain rfl := Option.some.inj hnamed
      rcases List.mem_cons.mp hmem with rfl | hmem
      · obtain ⟨text, htext, hpair⟩ := Option.map_eq_some_iff.mp hhead
        cases hpair
        exact List.mem_cons.mpr (.inl (Prod.ext htext.symm rfl))
      · exact List.mem_cons_of_mem _ (ih htail hmem)

/-- What a record knows of an object are members of it. -/
theorem takeFields_mem {names : List String} {place : Place}
    {members : List (Option String × Json)} {fields : Fields}
    (hfields : takeFields names place (.object members) = some fields) {name : String}
    {value : Json} (hmem : (name, value) ∈ fields.values) : (some name, value) ∈ members := by
  obtain ⟨known, hknown, hfields⟩ := Option.bind_eq_some_iff.mp hfields
  obtain ⟨named, hnamed, hknown⟩ := Option.bind_eq_some_iff.mp hknown
  split_ifs at hfields
  obtain rfl := Option.some.inj hknown
  obtain rfl := Option.some.inj hfields
  exact mem_of_mem_named hnamed (List.mem_filter.mp hmem).1

end Json

namespace Worker

open Message

/-- A line that is an object between blanks, which nests fewer than 128 levels and has one member
that is named `id`, a number of sixty-four bits. -/
structure StatesId (line : String) (members : List (Option String × Json)) (id : Nat) : Prop where
  read : Json.read? (Text.trim line) = some (.object members)
  depth : (Json.object members).depth < 128
  only : members.filter (·.1 = some "id") = [(some "id", .ofNat id)]
  inRange : id < UInt64.size

/-- Whether a line with an object between its blanks is heard: it is a request, or else the object
is proper and only blanks of JSON stand around it. -/
def IsHeard [JsonWording] (line : String) (members : List (Option String × Json)) : Prop :=
  (∃ frame, decodeLine Inbound.decode line = .ok frame) ∨
    (∀ c ∈ Text.margins line, Json.isSpace c = true) ∧ (Json.object members).isProper

section Lines

variable {line : String} {members : List (Option String × Json)} {id : Nat}

/-- A request has the id that its line states. -/
theorem StatesId.frame_id [JsonWording] (hstates : StatesId line members id) {frame : Inbound}
    (hdecoded : decodeLine Inbound.decode line = .ok frame) : frame.id = id := by
  unfold decodeLine at hdecoded
  dsimp only at hdecoded
  rw [hstates.read] at hdecoded
  split_ifs at hdecoded
  split at hdecoded
  · rename_i found hfound
    obtain rfl := Except.ok.inj hdecoded
    rw [Option.bind_eq_bind, Option.bind_some] at hfound
    obtain ⟨fields, hfields, hfound⟩ := Option.bind_eq_some_iff.mp hfound
    obtain ⟨stated, hstated, hfound⟩ := Option.bind_eq_some_iff.mp hfound
    obtain ⟨request, -, hfound⟩ := Option.bind_eq_some_iff.mp hfound
    obtain rfl := Option.some.inj hfound
    obtain ⟨value, hlookup, hword⟩ := Option.bind_eq_some_iff.mp hstated
    have hmem := Json.takeFields_mem hfields (Json.lookup_mem hlookup)
    have honly : (some "id", value) ∈ members.filter (·.1 = some "id") :=
      List.mem_filter.mpr ⟨hmem, by simp⟩
    rw [hstates.only, List.mem_singleton] at honly
    obtain ⟨-, rfl⟩ := Prod.mk.inj honly
    rw [Json.ofNat, Json.decodeWord, Json.decodeBelow, if_pos hstates.inRange] at hword
    exact (Option.some.inj hword).symm
  · cases hdecoded

theorem StatesId.statedId?_eq (hstates : StatesId line members id) [Decidable
    ((∀ c ∈ Text.margins line, Json.isSpace c = true) ∧ (Json.object members).isProper)] :
    statedId? line =
      if (∀ c ∈ Text.margins line, Json.isSpace c = true) ∧ (Json.object members).isProper then
        some id
      else none := by
  have hsound : (Json.object members).isSound Json.Place.outermost.levels ↔
      (Json.object members).isProper :=
    (Json.isSound_iff _ _).trans (and_iff_right (Nat.le_of_lt_succ hstates.depth))
  have hlast : (do
      let (_, value) ← (members.filter (·.1 = some "id")).getLast?
      Json.decodeWord .outermost value) = some id := by
    rw [hstates.only]
    exact if_pos hstates.inRange
  unfold statedId?
  rw [Json.read?_of_trim hstates.read]
  by_cases hspaces : ∀ c ∈ Text.margins line, Json.isSpace c = true
  · rw [if_pos hspaces, Option.bind_eq_bind, Option.bind_some]
    dsimp only
    rw [hlast]
    simp only [hsound, and_iff_right hspaces]
  · rw [if_neg hspaces, if_neg fun hboth => hspaces hboth.1]
    rfl

theorem StatesId.decodeLine_ne_empty [JsonWording] (hstates : StatesId line members id)
    {α : Type} (decoder : Json.Decoder α) : decodeLine decoder line ≠ .error .empty := by
  intro hempty
  obtain ⟨rest, htaken, -⟩ := Json.read?_eq_some_iff.mp hstates.read
  have hblank := isEmpty_trim_iff.mpr (decodeLine_eq_empty_iff.mp hempty)
  rw [String.isEmpty_iff.mp hblank] at htaken
  exact htaken.ne_nil rfl

/-- A line that states an id and is heard is answered under that id by one reply, behind the
events if it is a request. -/
theorem StatesId.serveLine_of_isHeard [JsonWording] (hstates : StatesId line members id)
    (hheard : IsHeard line members) (worker : LocalWorker) :
    ∃ (events : List RunEvent) (response : Response),
      (serveLine worker line).1 = events.map (.event id) ++ [.reply id response] := by
  unfold serveLine LineMeaning.ofLine
  cases hdecoded : decodeLine Inbound.decode line with
  | ok frame =>
      obtain rfl := hstates.frame_id hdecoded
      exact ⟨_, _, rfl⟩
  | error error =>
      obtain ⟨frame, hframe⟩ | hrecovered := hheard
      · nomatch hdecoded.symm.trans hframe
      · rw [hstates.statedId?_eq, if_pos hrecovered]
        cases error with
        | empty => exact absurd hdecoded (hstates.decodeLine_ne_empty _)
        | malformed | idMismatch | unexpectedReply => exact ⟨[], _, rfl⟩

/-- A line that states an id and is not heard is passed over. -/
theorem StatesId.serveLine_of_not_isHeard [JsonWording] (hstates : StatesId line members id)
    (hunheard : ¬IsHeard line members) (worker : LocalWorker) : (serveLine worker line).1 = [] := by
  obtain ⟨hinvalid, hunrecovered⟩ := not_or.mp hunheard
  unfold serveLine LineMeaning.ofLine
  cases hdecoded : decodeLine Inbound.decode line with
  | ok frame => exact absurd ⟨frame, hdecoded⟩ hinvalid
  | error error =>
      rw [hstates.statedId?_eq, if_neg hunrecovered]
      cases error <;> rfl

end Lines

/-! ### Serving a line among others -/

/-- Lines are served one after the other, whatever was written before. -/
theorem serveFrom_append [JsonWording] {worker : LocalWorker}
    (hwilling : worker.isStopped = false) (before : List String) (after : List Line)
    (written : Nat) :
    ∃ counted, (serveFrom worker written (before.map .ok ++ after)).frames =
      framesFor worker before ++ (serveFrom worker counted after).frames := by
  induction before generalizing written with
  | nil => exact ⟨written, rfl⟩
  | cons line others ih =>
      have hline : serveLine worker line = ((serveLine worker line).1, worker) :=
        Prod.ext rfl (serveLine_worker hwilling line)
      obtain ⟨counted, hothers⟩ := ih (written + (serveLine worker line).1.countP isReply)
      refine ⟨counted, ?_⟩
      rw [List.map_cons, List.cons_append, serveFrom, hline]
      simp [hothers]

/-- The frames do not depend on what was counted before. -/
theorem serveFrom_frames [JsonWording] {worker : LocalWorker} (lines : List Line)
    (written counted : Nat) :
    (serveFrom worker written lines).frames = (serveFrom worker counted lines).frames := by
  induction lines generalizing worker written counted with
  | nil => rfl
  | cons line others ih =>
      cases line with
      | error fault => rfl
      | ok line =>
          simp only [serveFrom]
          rw [ih]

/-- What is written for a line does not depend on the lines around it. -/
theorem serve_among [JsonWording] (engine : Engine) (before : List String) (line : String)
    (after : List Line) :
    (serve engine (before.map .ok ++ .ok line :: after)).frames =
      (serve engine (before.map .ok)).frames ++ (serveLine { engine } line).1 ++
        (serve engine after).frames := by
  have hline : serveLine { engine } line = ((serveLine { engine } line).1, { engine }) :=
    Prod.ext rfl (serveLine_worker rfl line)
  obtain ⟨counted, hframes⟩ := @serveFrom_append _ { engine } rfl before (.ok line :: after) 0
  rw [serve, hframes, serve, serveFrom_eq rfl, serveFrom, hline]
  simp only [List.append_assoc, serve]
  rw [serveFrom_frames after _ 0]

/-- A line that states an id is answered by exactly one reply, under that id, if it is heard, and by
nothing otherwise; so it is in every session, whatever comes before it and after it, and in whatever
order the sides move. -/
theorem reply_iff_heard [JsonWording] {line : String} {members : List (Option String × Json)}
    {id : Nat} (hstates : StatesId line members id) (engine : Engine) :
    ∃ answer : List Outbound,
      (IsHeard line members → ∃ (events : List RunEvent) (response : Response),
        answer = events.map (.event id) ++ [.reply id response]) ∧
      (¬IsHeard line members → answer = []) ∧
      (∀ (before : List String) (after : List Line),
        (serve engine (before.map .ok ++ .ok line :: after)).frames =
          (serve engine (before.map .ok)).frames ++ answer ++ (serve engine after).frames) ∧
      (engine.Responds → ∀ text before after, Text.linesOf text = before ++ line :: after →
        let frames := (serve engine (before.map .ok)).frames ++ answer ++
          (serve engine (after.map .ok)).frames
        Returns Session.Moves Session.outcome? (Session.start engine text)
          ((framesText frames).toList, frames.countP isReply)) := by
  refine ⟨(serveLine { engine } line).1, fun hheard => hstates.serveLine_of_isHeard hheard _,
    fun hunheard => hstates.serveLine_of_not_isHeard hunheard _,
    fun before after => serve_among engine before line after, ?_⟩
  intro hresponds text before after hlines frames
  have hframes : framesFor { engine } (Text.linesOf text) = frames := by
    rw [hlines, framesFor, List.flatMap_append, List.flatMap_cons]
    simp only [frames, serve, @serveFrom_eq _ { engine } rfl, List.append_assoc, framesFor]
  rw [← hframes]
  exact (Session.onCourse_start engine text).returns hresponds rfl

/-- White space in front that is none of JSON's, which trimming takes off. -/
def indented : String :=
  "\u3000" ++ idAlone.compact

theorem margins_idAlone : Text.margins idAlone.compact = [] := by
  obtain ⟨front, back, hline, hmargins, -⟩ := Text.exists_margins idAlone.compact
  have htrim : Text.trim idAlone.compact = idAlone.compact := trim_compact_ofMembers _
  have hlength := congrArg List.length (htrim ▸ hline)
  simp only [List.length_append] at hlength
  rw [hmargins, List.append_eq_nil_iff, ← List.length_eq_zero_iff, ← List.length_eq_zero_iff]
  omega

theorem trim_indented : Text.trim indented = Text.trim idAlone.compact := by
  have hblank : Text.isBlank '\u3000' = true := by decide
  simp [indented, Text.trim, Text.trimChars, hblank]

theorem statesId_idAlone : StatesId idAlone.compact [(some "id", .ofNat 7)] 7 where
  read := by
    rw [idAlone, trim_compact_ofMembers]
    exact Json.read?_compact (by decide)
  depth := by decide
  only := rfl
  inRange := by decide

theorem statesId_indented : StatesId indented [(some "id", .ofNat 7)] 7 :=
  { statesId_idAlone with read := trim_indented ▸ statesId_idAlone.read }

attribute [local instance] idAloneWording

theorem reply_iff_heard_indented :
    (∃ (events : List RunEvent) (response : Response),
      (serve oneEvent [.ok idAlone.compact]).frames =
        events.map (.event 7) ++ [.reply 7 response]) ∧
      (serve oneEvent [.ok indented]).frames = [] := by
  constructor
  · obtain ⟨answer, hheard, -, hserve, -⟩ := reply_iff_heard statesId_idAlone oneEvent
    obtain ⟨events, response, hanswer⟩ := hheard (.inr ⟨by simp [margins_idAlone], by decide⟩)
    have hframes := hserve [] []
    exact ⟨events, response, by simpa [serve, serveFrom, hanswer] using hframes⟩
  · obtain ⟨answer, -, hunheard, hserve, -⟩ := reply_iff_heard statesId_indented oneEvent
    have hblank : Text.isBlank '\u3000' = true := by decide
    have hanswer := hunheard (by
      rintro (⟨frame, hframe⟩ | ⟨hspaces, -⟩)
      · rw [decodeLine, trim_indented, ← decodeLine] at hframe
        cases decodeLine_idAlone.symm.trans hframe
      · have hmem : '\u3000' ∈ Text.margins indented := by
          simp [Text.margins, indented, hblank]
        exact absurd (hspaces _ hmem) (by decide))
    have hframes := hserve [] []
    simpa [serve, serveFrom, hanswer] using hframes

end Worker

end GateBench
