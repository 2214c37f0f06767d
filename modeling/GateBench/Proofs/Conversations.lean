import GateBench.Simulation.Shots

/-!
Courses of dialogues.  What a dialogue may come to, whatever it is answered, is a relation with one
rule for each thing that it can do next; a conversation with any audience takes one of these
courses.  A run of shots tells its shots in order on each of them, and says at its end how many it
told.
-/

namespace GateBench

open Message

namespace Dialogue

variable {ρ τ ω : Type}

/-- A dialogue may take this course: it tells these events, each with the answer whether somebody
listens, and comes to this result. -/
inductive Course : Dialogue ρ → List (RunEvent × Bool) → ρ → Prop where
  | done (result : ρ) : Course (.done result) [] result
  | ask {next : Bool → Dialogue ρ} {told : List (RunEvent × Bool)} {result : ρ} (answer : Bool)
      (hrest : Course (next answer) told result) : Course (.ask next) told result
  | tell {event : RunEvent} {next : Bool → Dialogue ρ} {told : List (RunEvent × Bool)} {result : ρ}
      (heard : Bool) (hrest : Course (next heard) told result) :
      Course (.tell event next) ((event, heard) :: told) result

/-- A course of a dialogue with another result is one of the dialogue itself. -/
theorem course_map {f : ρ → τ} {dialogue : Dialogue ρ} {told : List (RunEvent × Bool)} {result : τ}
    (hcourse : (dialogue.map f).Course told result) :
    ∃ inner, dialogue.Course told inner ∧ f inner = result := by
  induction dialogue generalizing told with
  | done value =>
      cases hcourse
      exact ⟨value, .done value, rfl⟩
  | ask next ih =>
      cases hcourse with
      | ask answer hrest =>
          obtain ⟨inner, hinner, hresult⟩ := ih answer hrest
          exact ⟨inner, .ask answer hinner, hresult⟩
  | tell event next ih =>
      cases hcourse with
      | tell heard hrest =>
          obtain ⟨inner, hinner, hresult⟩ := ih heard hrest
          exact ⟨inner, .tell heard hinner, hresult⟩

end Dialogue

/-- An audience that also keeps what it was told, each event with its answer, latest first. -/
def Audience.recorded {ω : Type} (audience : Audience ω) :
    Audience (ω × List (RunEvent × Bool)) where
  goesOn state :=
    let (answer, listener) := audience.goesOn state.1
    (answer, listener, state.2)
  hears state event :=
    let (heard, listener) := audience.hears state.1 event
    (heard, listener, (event, heard) :: state.2)

namespace Dialogue

variable {ρ ω : Type}

/-- A conversation takes a course of its dialogue, and an audience that keeps what it is told makes
no difference to it. -/
theorem converseFrom_recorded (audience : Audience ω) (dialogue : Dialogue ρ)
    (earlier : List RunEvent) (listener : ω) (kept : List (RunEvent × Bool)) :
    ∃ told, dialogue.Course told (dialogue.converseFrom audience earlier listener).result ∧
      (dialogue.converseFrom audience earlier listener).events =
        earlier.reverse ++ told.map Prod.fst ∧
      dialogue.converseFrom audience.recorded earlier (listener, kept) =
        ⟨(dialogue.converseFrom audience earlier listener).result,
          (dialogue.converseFrom audience earlier listener).events,
          (dialogue.converseFrom audience earlier listener).audience, told.reverse ++ kept⟩ := by
  induction dialogue generalizing earlier listener kept with
  | done result =>
      refine ⟨[], .done result, ?_, rfl⟩
      simp [converseFrom]
  | ask next ih =>
      obtain ⟨told, hcourse, hevents, hrecorded⟩ :=
        ih (audience.goesOn listener).1 earlier (audience.goesOn listener).2 kept
      exact ⟨told, .ask _ hcourse, hevents, hrecorded⟩
  | tell event next ih =>
      obtain ⟨told, hcourse, hevents, hrecorded⟩ :=
        ih (audience.hears listener event).1 (event :: earlier) (audience.hears listener event).2
          ((event, (audience.hears listener event).1) :: kept)
      refine ⟨(event, (audience.hears listener event).1) :: told, .tell _ hcourse, ?_, ?_⟩
      · exact hevents.trans (by simp)
      · exact hrecorded.trans (by simp [converseFrom])

/-- What an audience hears in a conversation, each event with its answer. -/
def heard (audience : Audience ω) (dialogue : Dialogue ρ) (listener : ω) : List (RunEvent × Bool) :=
  (dialogue.converse audience.recorded (listener, [])).audience.2.reverse

/-- What was heard are the events of the conversation, along the course that it took. -/
theorem heard_spec (audience : Audience ω) (dialogue : Dialogue ρ) (listener : ω) :
    (dialogue.heard audience listener).map Prod.fst =
        (dialogue.converse audience listener).events ∧
      dialogue.Course (dialogue.heard audience listener)
        (dialogue.converse audience listener).result := by
  obtain ⟨told, hcourse, hevents, hrecorded⟩ :=
    converseFrom_recorded audience dialogue [] listener []
  have htold : dialogue.heard audience listener = told := by
    rw [heard, converse, hrecorded, List.append_nil, List.reverse_reverse]
  rw [htold]
  exact ⟨hevents.symm, hcourse⟩

end Dialogue

/-! ### Runs of shots -/

namespace Simulation

variable {σ α : Type} [Scalar α] {circuit : Circuit} {draw : Draw σ α}

/-- How a run of shots may end that began with the shot of an index: all shots were told and heard,
or it was stopped behind the last shot told. -/
inductive RunEnd.Fits (index remaining : Nat) (told : List (RunEvent × Bool)) : RunEnd → Prop where
  | completed (hlength : told.length = remaining) (hheard : ∀ shot ∈ told, shot.2 = true) :
      Fits index remaining told (.completed (index + remaining))
  | stopped : Fits index remaining told (.stopped (index + told.length))

/-- On every course, a run tells its shots in order, without a gap, and its end fits them. -/
theorem Circuit.runFrom_course {index remaining : Nat} {source last : σ}
    {told : List (RunEvent × Bool)} {ending : RunEnd}
    (hcourse : (circuit.runFrom draw index remaining source).Course told (ending, last)) :
    told.map (·.1.index) = List.range' index told.length ∧ ending.Fits index remaining told := by
  induction remaining generalizing index source told with
  | zero =>
      cases hcourse
      exact ⟨rfl, .completed rfl (by simp)⟩
  | succ remaining ih =>
      cases hcourse with
      | ask wanted hrest =>
          cases wanted with
          | false =>
              cases hrest
              exact ⟨rfl, .stopped⟩
          | true =>
              cases hrest with
              | tell listening hlater =>
                  cases listening with
                  | false =>
                      cases hlater
                      exact ⟨rfl, .stopped⟩
                  | true =>
                      obtain ⟨hindices, hends⟩ := ih hlater
                      refine ⟨by rw [List.map_cons, hindices]; rfl, ?_⟩
                      cases hends with
                      | completed hlength hheard =>
                          rw [Nat.add_right_comm, Nat.add_assoc]
                          exact .completed (by simpa using hlength) (by simpa using hheard)
                      | stopped =>
                          rw [Nat.add_right_comm, Nat.add_assoc]
                          exact .stopped

end Simulation

end GateBench
