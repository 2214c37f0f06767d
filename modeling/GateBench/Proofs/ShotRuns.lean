import GateBench.Simulation.Shots
import Mathlib.Data.List.Infix
import Mathlib.Logic.Function.Iterate

/-!
What shots draw, and what runs of shots tell.  An instruction takes one draw or none, whatever is
read, so a shot takes as many draws as its circuit has measurements and resets, and each shot of a
run has a block of draws of its own.  Therefore a run that was cut short told just what the whole
run begins with, and two runs behind one another tell what one run of all their shots tells.
-/

namespace GateBench

open Message

namespace Dialogue

variable {ρ ω : Type}

/-- What an audience answered: to the questions whether to go on, and to the events. -/
structure Answers where
  goesOn : List Bool
  hears : List Bool
deriving DecidableEq

/-- The answers of an audience in a conversation, in order. -/
def answers (audience : Audience ω) : Dialogue ρ → ω → Answers
  | done _, _ => ⟨[], []⟩
  | ask next, listener =>
    let (answer, listener) := audience.goesOn listener
    let later := (next answer).answers audience listener
    { later with goesOn := answer :: later.goesOn }
  | tell event next, listener =>
    let (heard, listener) := audience.hears listener event
    let later := (next heard).answers audience listener
    { later with hears := heard :: later.hears }

/-- What was told earlier stands before what a conversation tells, and changes nothing else. -/
theorem converseFrom_eq (audience : Audience ω) (dialogue : Dialogue ρ) (earlier : List RunEvent)
    (listener : ω) :
    dialogue.converseFrom audience earlier listener =
      ⟨(dialogue.converse audience listener).result,
        earlier.reverse ++ (dialogue.converse audience listener).events,
        (dialogue.converse audience listener).audience⟩ := by
  induction dialogue generalizing earlier listener with
  | done result => simp [converse, converseFrom]
  | ask next ih => exact ih _ earlier _
  | tell event next ih =>
      rw [converse, converseFrom, converseFrom]
      dsimp only
      rw [ih, ih _ [event], List.reverse_cons, List.append_assoc]
      rfl

/-- A willing audience always answers yes. -/
theorem answers_willing (dialogue : Dialogue ρ) :
    (∀ answer ∈ (dialogue.answers .willing ()).goesOn, answer = true) ∧
      ∀ answer ∈ (dialogue.answers .willing ()).hears, answer = true := by
  induction dialogue with
  | done result => exact ⟨nofun, nofun⟩
  | ask next ih =>
      exact ⟨List.forall_mem_cons.mpr ⟨rfl, (ih true).1⟩, (ih true).2⟩
  | tell event next ih =>
      exact ⟨(ih true).1, List.forall_mem_cons.mpr ⟨rfl, (ih true).2⟩⟩

end Dialogue

/-- Whether an instruction takes a draw. -/
def Program.Instruction.draws : Program.Instruction → Bool
  | .gate _ _ => false
  | .measure _ | .reset _ => true

/-- Whether an instruction reads a bit. -/
def Program.Instruction.reads : Program.Instruction → Bool
  | .measure _ => true
  | .gate _ _ | .reset _ => false

namespace Simulation

open GateBench.Program

variable {σ α : Type}

/-- The source behind so many draws. -/
def Draw.skip (draw : Draw σ α) (count : Nat) : σ → σ :=
  (fun source => (draw source).2)^[count]

/-- The same draws, with a count of those that were taken. -/
def Draw.counted (draw : Draw σ α) : Draw (σ × Nat) α :=
  fun (source, taken) => ((draw source).1, (draw source).2, taken + 1)

theorem Draw.skip_skip (draw : Draw σ α) (first second : Nat) (source : σ) :
    draw.skip second (draw.skip first source) = draw.skip (first + second) source := by
  rw [Nat.add_comm]
  exact (Function.iterate_add_apply _ second first source).symm

/-- The character of a bit in a label. -/
def digitOf (bit : Bool) : Char :=
  if bit then '1' else '0'

theorem toList_labelOf {bits : List Bool} (hbits : bits ≠ []) :
    (labelOf bits).toList = bits.map digitOf := by
  rw [labelOf, if_neg hbits, String.toList_ofList]
  rfl

/-- A fold passes through each step of its list. -/
theorem foldl_eq_of_getElem? {β γ : Type} {steps : List γ} {index : Nat} {step : γ}
    (hstep : steps[index]? = some step) (next : β → γ → β) (start : β) :
    steps.foldl next start =
      (steps.drop (index + 1)).foldl next (next ((steps.take index).foldl next start) step) := by
  obtain ⟨hindex, hstep⟩ := List.getElem?_eq_some_iff.mp hstep
  have hsplit : steps = steps.take index ++ step :: steps.drop (index + 1) := by
    rw [← hstep, ← List.drop_eq_getElem_cons hindex, List.take_append_drop]
  conv_lhs => rw [hsplit, List.foldl_append, List.foldl_cons]

variable [Scalar α]

/-! ### Draws of a shot -/

namespace ShotState

variable (draw : Draw σ α) (shot : ShotState σ α)

/-- A shot whose draws are counted. -/
def counting (shot : ShotState σ α) (taken : Nat) : ShotState (σ × Nat) α :=
  ⟨shot.state, shot.bits, shot.source, taken⟩

theorem perform_counted (instruction : Instruction) (taken : Nat) :
    (shot.counting taken).perform draw.counted instruction =
      (shot.perform draw instruction).counting (taken + instruction.draws.toNat) := by
  cases instruction <;> rfl

theorem foldl_perform_counted (steps : List Instruction) (taken : Nat) :
    steps.foldl (perform draw.counted) (shot.counting taken) =
      (steps.foldl (perform draw) shot).counting (taken + steps.countP (·.draws)) := by
  induction steps generalizing shot taken with
  | nil => rfl
  | cons first others ih =>
      rw [List.foldl_cons, perform_counted, ih, List.foldl_cons, List.countP_cons, Nat.add_assoc,
        Nat.add_comm (List.countP _ _)]
      cases first.draws <;> rfl

theorem source_perform (instruction : Instruction) :
    (shot.perform draw instruction).source = draw.skip instruction.draws.toNat shot.source := by
  cases instruction <;> rfl

theorem source_foldl_perform (steps : List Instruction) :
    (steps.foldl (perform draw) shot).source =
      draw.skip (steps.countP (·.draws)) shot.source := by
  induction steps generalizing shot with
  | nil => rfl
  | cons first others ih =>
      rw [List.foldl_cons, ih, source_perform, Draw.skip_skip, List.countP_cons, Nat.add_comm]
      cases first.draws <;> rfl

/-- The bit that a measurement would read now. -/
def read (shot : ShotState σ α) (qubit : Nat) : Bool :=
  (shot.state.measure qubit (draw shot.source).1).1

/-- Bits are only added, one for each measurement. -/
theorem bits_foldl_perform (steps : List Instruction) :
    ∃ later, (steps.foldl (perform draw) shot).bits = later ++ shot.bits ∧
      later.length = steps.countP (·.reads) := by
  induction steps generalizing shot with
  | nil => exact ⟨[], rfl, rfl⟩
  | cons first others ih =>
      obtain ⟨later, hbits, hlength⟩ := ih (shot.perform draw first)
      cases first with
      | gate kind operands => exact ⟨later, hbits, hlength⟩
      | reset qubit => exact ⟨later, hbits, hlength⟩
      | measure qubit =>
          refine ⟨later ++ [shot.read draw qubit], ?_, ?_⟩
          · rw [List.append_assoc]
            exact hbits
          · rw [List.length_append, hlength, List.countP_cons_of_pos rfl]
            rfl

end ShotState

namespace Circuit

variable (circuit : Circuit) (draw : Draw σ α) (source : σ)

/-- How many draws a shot takes. -/
def draws (circuit : Circuit) : Nat :=
  circuit.steps.countP (·.draws)

/-- A shot that has performed the first instructions of its circuit. -/
def reached (count : Nat) : ShotState σ α :=
  (circuit.steps.take count).foldl (ShotState.perform draw) ⟨.initial circuit.qubits, [], source⟩

theorem source_shot : (circuit.shot draw source).2 = draw.skip circuit.draws source :=
  ShotState.source_foldl_perform draw _ circuit.steps

theorem shot_counted :
    circuit.shot draw.counted (source, 0) =
      ((circuit.shot draw source).1, draw.skip circuit.draws source, circuit.draws) := by
  have hcounted := ShotState.foldl_perform_counted draw ⟨.initial circuit.qubits, [], source⟩
    circuit.steps 0
  rw [Nat.zero_add] at hcounted
  rw [← source_shot]
  exact congrArg (fun shot => (labelOf shot.bits.reverse, shot.source)) hcounted

/-! ### Labels -/

/-- The bits of a shot in the order in which they were read. -/
theorem exists_bits_shot :
    ∃ bits, (circuit.shot draw source).1 = labelOf bits ∧
      bits.length = circuit.steps.countP (·.reads) ∧
      ∀ index qubit, circuit.steps[index]? = some (.measure qubit) →
        bits[(circuit.steps.take index).countP (·.reads)]? =
          some ((circuit.reached draw source index).read draw qubit) := by
  let start : ShotState σ α := ⟨.initial circuit.qubits, [], source⟩
  obtain ⟨bits, hbits, hlength⟩ := ShotState.bits_foldl_perform draw start circuit.steps
  rw [List.append_nil] at hbits
  refine ⟨bits.reverse, by rw [← hbits]; rfl, by rw [List.length_reverse, hlength], ?_⟩
  intro index qubit hstep
  -- what was read before the step and behind it
  obtain ⟨earlier, hearlier, hbefore⟩ :=
    ShotState.bits_foldl_perform draw start (circuit.steps.take index)
  obtain ⟨later, hlater, -⟩ := ShotState.bits_foldl_perform draw
    ((circuit.reached draw source index).perform draw (.measure qubit))
    (circuit.steps.drop (index + 1))
  have hread : bits =
      later ++ (circuit.reached draw source index).read draw qubit :: earlier := by
    rw [List.append_nil] at hearlier
    rw [← hbits, foldl_eq_of_getElem? hstep, ← hearlier]
    exact hlater
  rw [hread, List.reverse_append, List.reverse_cons, List.append_assoc, ← hbefore,
    ← List.length_reverse, List.getElem?_append_right (Nat.le_refl _), Nat.sub_self]
  rfl

/-- The label of a shot has a digit for each measurement, the bit that it read, or is a pair of
parentheses. -/
theorem label_shot :
    (circuit.steps.countP (·.reads) = 0 → (circuit.shot draw source).1 = "()") ∧
      (circuit.steps.countP (·.reads) ≠ 0 →
        (circuit.shot draw source).1.length = circuit.steps.countP (·.reads) ∧
          ∀ character ∈ (circuit.shot draw source).1.toList,
            character = '0' ∨ character = '1') ∧
      ∀ index qubit, circuit.steps[index]? = some (.measure qubit) →
        (circuit.shot draw source).1.toList[(circuit.steps.take index).countP (·.reads)]? =
          some (digitOf ((circuit.reached draw source index).read draw qubit)) := by
  obtain ⟨bits, hlabel, hlength, hread⟩ := exists_bits_shot circuit draw source
  rw [hlabel]
  have hdigits (hreads : circuit.steps.countP (·.reads) ≠ 0) :
      (labelOf bits).toList = bits.map digitOf := by
    apply toList_labelOf
    rintro rfl
    exact hreads hlength.symm
  refine ⟨fun hreads => ?_, fun hreads => ⟨?_, ?_⟩, fun index qubit hstep => ?_⟩
  · rw [List.length_eq_zero_iff.mp (hlength.trans hreads)]
    rfl
  · rw [← String.length_toList, hdigits hreads, List.length_map, hlength]
  · rw [hdigits hreads, List.forall_mem_map]
    intro bit _
    cases bit
    · exact .inl rfl
    · exact .inr rfl
  · have hreads : circuit.steps.countP (·.reads) ≠ 0 :=
      (List.countP_pos_iff.mpr ⟨_, List.mem_of_getElem? hstep, rfl⟩).ne'
    rw [hdigits hreads, List.getElem?_map, hread index qubit hstep]
    rfl

/-! ### Runs -/

/-- The events of the first shots of a run; each shot has its own block of draws. -/
def outcomes (index count : Nat) : List RunEvent :=
  (List.range count).map fun shot =>
    ⟨(circuit.shot draw (draw.skip (circuit.draws * shot) source)).1, index + shot⟩

variable {ω : Type} {circuit : Circuit} {draw : Draw σ α} {source : σ}

/-- Behind its first shots a run goes on like a run of its own with the source that they left. -/
theorem outcomes_add (index first second : Nat) :
    circuit.outcomes draw source index (first + second) =
      circuit.outcomes draw source index first ++
        circuit.outcomes draw (draw.skip (circuit.draws * first) source) (index + first) second := by
  rw [outcomes, List.range_add, List.map_append, List.map_map, outcomes, outcomes]
  congr 1
  refine List.map_congr_left fun shot _ => ?_
  simp only [Function.comp_apply, Draw.skip_skip, Nat.mul_add, Nat.add_assoc]

theorem outcomes_succ (index count : Nat) :
    circuit.outcomes draw source index (count + 1) =
      ⟨(circuit.shot draw source).1, index⟩ ::
        circuit.outcomes draw (circuit.shot draw source).2 (index + 1) count := by
  rw [Nat.add_comm, outcomes_add, Nat.mul_one, source_shot]
  rfl

/-- Where a run begins to count makes no difference to its labels. -/
theorem map_label_outcomes (index other count : Nat) :
    (circuit.outcomes draw source index count).map (·.label) =
      (circuit.outcomes draw source other count).map (·.label) := by
  simp [outcomes]

theorem map_index_outcomes (count : Nat) :
    (circuit.outcomes draw source 0 count).map (·.index) = List.range count := by
  simp [outcomes, Function.comp_def]

/-- `circuit.RunsTo draw index remaining source events answers ending last`: a run of the remaining
shots tells these events and is answered this way, and so it ends, with the last source left. -/
inductive RunsTo (circuit : Circuit) (draw : Draw σ α) : (index remaining : Nat) → σ →
    List RunEvent → Dialogue.Answers → RunEnd → σ → Prop
  | done {index : Nat} {source : σ} :
      RunsTo circuit draw index 0 source [] ⟨[], []⟩ (.completed index) source
  | unwanted {index remaining : Nat} {source : σ} :
      RunsTo circuit draw index (remaining + 1) source [] ⟨[false], []⟩ (.stopped index) source
  | unheard {index remaining : Nat} {source : σ} :
      RunsTo circuit draw index (remaining + 1) source [⟨(circuit.shot draw source).1, index⟩]
        ⟨[true], [false]⟩ (.stopped (index + 1)) (circuit.shot draw source).2
  | heard {index remaining : Nat} {source last : σ} {events : List RunEvent}
      {answers : Dialogue.Answers} {ending : RunEnd} :
      RunsTo circuit draw (index + 1) remaining (circuit.shot draw source).2 events answers ending
        last →
      RunsTo circuit draw index (remaining + 1) source
        (⟨(circuit.shot draw source).1, index⟩ :: events)
        ⟨true :: answers.goesOn, true :: answers.hears⟩ ending last

/-- Every audience takes a run one of these ways. -/
theorem runFrom_runsTo (circuit : Circuit) (draw : Draw σ α) (audience : Audience ω)
    (index remaining : Nat) (source : σ) (listener : ω) :
    circuit.RunsTo draw index remaining source
      ((circuit.runFrom draw index remaining source).converse audience listener).events
      ((circuit.runFrom draw index remaining source).answers audience listener)
      ((circuit.runFrom draw index remaining source).converse audience listener).result.1
      ((circuit.runFrom draw index remaining source).converse audience listener).result.2 := by
  induction remaining generalizing index source listener with
  | zero => exact .done
  | succ remaining ih =>
      rcases hgoes : audience.goesOn listener with ⟨wanted, asked⟩
      simp only [runFrom, Dialogue.converse, Dialogue.converseFrom, Dialogue.answers, hgoes]
      cases wanted with
      | false => exact .unwanted
      | true =>
          rcases hhears : audience.hears asked ⟨(circuit.shot draw source).1, index⟩ with
            ⟨heard, told⟩
          simp only [if_true, Dialogue.converseFrom, Dialogue.answers, hhears]
          cases heard with
          | false => exact .unheard
          | true =>
              rw [Dialogue.converseFrom_eq]
              exact .heard (ih _ _ told)

namespace RunsTo

variable {index remaining : Nat} {last : σ} {events : List RunEvent}
  {answers : Dialogue.Answers} {ending : RunEnd}
  (hruns : circuit.RunsTo draw index remaining source events answers ending last)
include hruns

theorem events_eq : events = circuit.outcomes draw source index events.length := by
  induction hruns with
  | done | unwanted => rfl
  | unheard => rw [List.length_singleton, outcomes_succ]; rfl
  | heard _ ih => rw [List.length_cons, outcomes_succ, ← ih]

theorem last_eq : last = draw.skip (circuit.draws * events.length) source := by
  induction hruns with
  | done | unwanted => rfl
  | unheard => rw [List.length_singleton, Nat.mul_one, source_shot]
  | heard _ ih =>
      rw [ih, source_shot, Draw.skip_skip, List.length_cons, Nat.mul_succ, Nat.add_comm]

theorem length_le : events.length ≤ remaining := by
  induction hruns with
  | done => exact Nat.le_refl 0
  | unwanted => exact Nat.zero_le _
  | unheard => exact Nat.succ_pos _
  | heard _ ih => exact Nat.succ_le_succ ih

/-- A run is completed when all questions and all events were answered with yes. -/
theorem ending_eq : ending =
    if events.length = remaining ∧ answers.goesOn = List.replicate remaining true ∧
      answers.hears = List.replicate remaining true then .completed (index + remaining)
    else .stopped (index + events.length) := by
  induction hruns with
  | done => rfl
  | unwanted => rfl
  | unheard => simp [List.replicate_succ]
  | heard _ ih =>
      rw [ih]
      simp [List.replicate_succ, Nat.add_assoc, Nat.add_comm 1]

/-- A run that hears no refusal runs all shots. -/
theorem completed (hgoes : ∀ answer ∈ answers.goesOn, answer = true)
    (hhears : ∀ answer ∈ answers.hears, answer = true) :
    events.length = remaining ∧ ending = .completed (index + remaining) := by
  induction hruns with
  | done => exact ⟨rfl, rfl⟩
  | unwanted => nomatch hgoes false (List.mem_singleton_self false)
  | unheard => nomatch hhears false (List.mem_singleton_self false)
  | heard _ ih =>
      obtain ⟨hlength, hending⟩ := ih (fun answer hanswer => hgoes _ (.tail _ hanswer))
        fun answer hanswer => hhears _ (.tail _ hanswer)
      exact ⟨congrArg Nat.succ hlength, by rw [hending, Nat.add_assoc, Nat.add_comm 1]⟩

end RunsTo

/-- An uninterrupted run tells all its shots. -/
theorem run_willing (circuit : Circuit) (draw : Draw σ α) (shots : Nat) (source : σ) :
    (circuit.run draw shots source).converse .willing () =
      ⟨(.completed shots, draw.skip (circuit.draws * shots) source),
        circuit.outcomes draw source 0 shots, ()⟩ := by
  have hruns := circuit.runFrom_runsTo draw .willing 0 shots source ()
  obtain ⟨hgoes, hhears⟩ := Dialogue.answers_willing (circuit.runFrom draw 0 shots source)
  obtain ⟨hlength, hending⟩ := hruns.completed hgoes hhears
  have hevents := hruns.events_eq
  have hlast := hruns.last_eq
  rw [hlength] at hevents hlast
  rw [Nat.zero_add] at hending
  rw [run, ← hevents, ← hlast, ← hending]

end Circuit

end Simulation

end GateBench
