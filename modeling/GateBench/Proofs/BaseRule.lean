import GateBench.Program.BaseProfile
import GateBench.Proofs.Operands

/-!
The rule of the base profile: nothing is reset, and what was measured is never acted on again.  The
check follows the inlined steps once and remembers the measured qubits; it reports nothing exactly
when the steps keep the rule.  The steps of a called operation stand together among those of its
caller, so an operation that keeps the rule calls none that breaks it.
-/

namespace GateBench.Program

/-- What the base profile asks of inlined steps: none is a reset, and none acts on a qubit that an
earlier one measured. -/
structure KeepsBase (steps : List FlatStep) : Prop where
  noReset : ∀ step ∈ steps, ∀ qubit, step.instruction ≠ .reset qubit
  noReuse : steps.Pairwise fun earlier later =>
    ∀ qubit, earlier.instruction = .measure qubit → qubit ∉ later.instruction.qubits

variable {measured : List Nat} {instruction : Instruction} {found : List ProgramError}
  {steps others : List FlatStep} {step : FlatStep} {qubit : Nat}

/-! ### The rule -/

theorem KeepsBase.nil : KeepsBase [] :=
  ⟨by simp, .nil⟩

theorem keepsBase_cons_iff :
    KeepsBase (step :: others) ↔
      (∀ qubit, step.instruction ≠ .reset qubit) ∧
        (∀ later ∈ others, ∀ qubit, step.instruction = .measure qubit →
          qubit ∉ later.instruction.qubits) ∧
        KeepsBase others := by
  constructor
  · rintro ⟨hreset, hreuse⟩
    obtain ⟨hstep, hothers⟩ := List.forall_mem_cons.mp hreset
    obtain ⟨hlater, hpairwise⟩ := List.pairwise_cons.mp hreuse
    exact ⟨hstep, hlater, hothers, hpairwise⟩
  · rintro ⟨hstep, hlater, hothers, hpairwise⟩
    exact ⟨List.forall_mem_cons.mpr ⟨hstep, hothers⟩, List.pairwise_cons.mpr ⟨hlater, hpairwise⟩⟩

/-- Leaving steps out never breaks the rule. -/
theorem KeepsBase.sublist (hkeeps : KeepsBase steps) (hsublist : others.Sublist steps) :
    KeepsBase others :=
  ⟨fun step hstep => hkeeps.noReset step (hsublist.subset hstep), hkeeps.noReuse.sublist hsublist⟩

/-! ### One step of the check -/

theorem mem_measuredAfter :
    qubit ∈ measuredAfter measured instruction ↔
      instruction = .measure qubit ∨ qubit ∈ measured := by
  cases instruction with
  | gate kind qubits => simp [measuredAfter]
  | reset other => simp [measuredAfter]
  | measure other =>
      rw [Instruction.measure.injEq, measuredAfter]
      split_ifs with hagain
      · exact ⟨Or.inr, fun hmem => hmem.elim (fun heq => heq ▸ hagain) id⟩
      · rw [List.mem_cons, eq_comm]

theorem baseViolation?_eq_none_iff :
    baseViolation? measured instruction = none ↔
      (∀ qubit, instruction ≠ .reset qubit) ∧ ∀ qubit ∈ instruction.qubits, qubit ∉ measured := by
  cases instruction with
  | gate kind qubits => simp [baseViolation?, Instruction.qubits]
  | measure other => simp [baseViolation?, Instruction.qubits]
  | reset other => simp [baseViolation?]

/-- The violations found after one more step, latest first. -/
def foundAfter (measured : List Nat) (found : List ProgramError) (step : FlatStep) :
    List ProgramError :=
  match baseViolation? measured step.instruction with
  | none => found
  | some violation =>
    let error := ProgramError.located step.location (.profileViolation violation)
    if error ∈ found then found else error :: found

theorem collectViolations_cons :
    collectViolations measured found (step :: others) =
      collectViolations (measuredAfter measured step.instruction) (foundAfter measured found step)
        others := rfl

theorem foundAfter_eq_nil_iff :
    foundAfter measured found step = [] ↔
      found = [] ∧ baseViolation? measured step.instruction = none := by
  unfold foundAfter
  cases baseViolation? measured step.instruction with
  | none => simp
  | some violation =>
      dsimp only
      split_ifs with hmem
      · simp [List.ne_nil_of_mem hmem]
      · simp

theorem foundAfter_nodup (hfound : found.Nodup) : (foundAfter measured found step).Nodup := by
  unfold foundAfter
  split
  · exact hfound
  · dsimp only
    split_ifs with hmem
    · exact hfound
    · exact List.nodup_cons.mpr ⟨hmem, hfound⟩

theorem mem_foundAfter {error : ProgramError} (herror : error ∈ foundAfter measured found step) :
    error ∈ found ∨
      ∃ violation, error = .located step.location (.profileViolation violation) := by
  unfold foundAfter at herror
  split at herror
  · exact .inl herror
  · rename_i violation _
    dsimp only at herror
    split_ifs at herror
    · exact .inl herror
    · exact (List.mem_cons.mp herror).elim (fun heq => .inr ⟨violation, heq⟩) .inl

/-! ### The whole check -/

/-- The check finds nothing exactly when the steps keep the rule and none acts on a qubit that was
measured before them. -/
theorem collectViolations_eq_nil_iff :
    collectViolations measured found steps = [] ↔
      found = [] ∧ KeepsBase steps ∧
        ∀ step ∈ steps, ∀ qubit ∈ step.instruction.qubits, qubit ∉ measured := by
  induction steps generalizing measured found with
  | nil => simp [collectViolations, KeepsBase.nil]
  | cons step others ih =>
      rw [collectViolations_cons, ih, foundAfter_eq_nil_iff, baseViolation?_eq_none_iff,
        keepsBase_cons_iff, List.forall_mem_cons]
      simp only [mem_measuredAfter, not_or]
      constructor
      · rintro ⟨⟨hfound, hreset, hstep⟩, hothers, hafter⟩
        refine ⟨hfound, ⟨hreset, fun later hlater qubit hmeasure hqubit => ?_, hothers⟩, hstep,
          fun later hlater qubit hqubit => (hafter later hlater qubit hqubit).2⟩
        exact (hafter later hlater qubit hqubit).1 hmeasure
      · rintro ⟨hfound, ⟨hreset, hreuse, hothers⟩, hstep, hbefore⟩
        refine ⟨⟨hfound, hreset, hstep⟩, hothers, fun later hlater qubit hqubit => ⟨?_, ?_⟩⟩
        · exact fun hmeasure => hreuse later hlater qubit hmeasure hqubit
        · exact hbefore later hlater qubit hqubit

/-- A violation that was found before is not added again. -/
theorem collectViolations_nodup (hfound : found.Nodup) :
    (collectViolations measured found steps).Nodup := by
  induction steps generalizing measured found with
  | nil => exact List.nodup_reverse.mpr hfound
  | cons step others ih => exact ih (foundAfter_nodup hfound)

/-- Whatever is found is found at one of the steps. -/
theorem mem_collectViolations {error : ProgramError}
    (herror : error ∈ collectViolations measured found steps) :
    error ∈ found ∨ ∃ step ∈ steps, ∃ violation,
      error = .located step.location (.profileViolation violation) := by
  induction steps generalizing measured found with
  | nil => exact .inl (List.mem_reverse.mp herror)
  | cons step others ih =>
      rcases ih herror with hbefore | ⟨later, hlater, hviolation⟩
      · rcases mem_foundAfter hbefore with hfound | hviolation
        · exact .inl hfound
        · exact .inr ⟨step, List.mem_cons_self, hviolation⟩
      · exact .inr ⟨later, List.mem_cons_of_mem step hlater, hviolation⟩

/-! ### What violations say -/

/-- A number is read off its decimal digits. -/
theorem toString_injective : Function.Injective (toString : Nat → String) := by
  intro first second hsame
  have hdigits : Nat.toDigits 10 first = Nat.toDigits 10 second := by
    simpa [Nat.repr_eq_ofList_toDigits, String.ext_iff] using hsame
  simpa using congrArg (Nat.ofDigitChars 10 · 0) hdigits

/-- The first letter tells the kinds of violations apart. -/
theorem BaseViolation.text_head? (violation : BaseViolation) :
    violation.text.toList.head? = some (match violation with
      | .reset _ => 'R'
      | .measuredAgain _ => 'Q'
      | .gateAfterMeasurement _ => 'G') := by
  cases violation with
  | reset qubit =>
      change ("Reset of qubit " ++ toString qubit).toList.head? = _
      rw [String.toList_append]
      rfl
  | measuredAgain qubit =>
      change ("Qubit " ++ toString qubit ++ " is measured more than once").toList.head? = _
      rw [String.toList_append, String.toList_append]
      rfl
  | gateAfterMeasurement qubit =>
      change ("Gate on qubit " ++ toString qubit ++ " after it was measured").toList.head? = _
      rw [String.toList_append, String.toList_append]
      rfl

/-- Violations that read the same are the same. -/
theorem BaseViolation.text_injective : Function.Injective BaseViolation.text := by
  intro first second hsame
  have hletter := congrArg (·.toList.head?) hsame
  simp only [text_head?] at hletter
  cases first with
  | reset qubit =>
      cases second with
      | reset other =>
          have hdigits := (String.append_right_inj _).mp hsame
          exact congrArg _ (toString_injective hdigits)
      | _ => simp at hletter
  | measuredAgain qubit =>
      cases second with
      | measuredAgain other =>
          have hdigits := (String.append_right_inj _).mp ((String.append_left_inj _).mp hsame)
          exact congrArg _ (toString_injective hdigits)
      | _ => simp at hletter
  | gateAfterMeasurement qubit =>
      cases second with
      | gateAfterMeasurement other =>
          have hdigits := (String.append_right_inj _).mp ((String.append_left_inj _).mp hsame)
          exact congrArg _ (toString_injective hdigits)
      | _ => simp at hletter

variable {sources : List Source} {limits : Limits} {program : Program} {number callee : Nat}

/-- No two violations of one check stand on the same line and read the same. -/
theorem violations_distinct :
    ((program.violations number .base).map fun error =>
      (error.location?, error.message)).Nodup := by
  refine (collectViolations_nodup .nil).map_on fun error herror other hother hsame => ?_
  obtain hnone | ⟨step, -, violation, rfl⟩ := mem_collectViolations herror
  · nomatch hnone
  obtain hnone | ⟨later, -, violation', rfl⟩ := mem_collectViolations hother
  · nomatch hnone
  obtain ⟨hlocation, hmessage⟩ := Prod.mk.inj hsame
  have hviolation := BaseViolation.text_injective ((String.append_left_inj _).mp hmessage)
  rw [Option.some.inj hlocation, hviolation]

/-! ### Called operations -/

/-- The steps of a called operation stand together among those of its caller. -/
theorem Inlines.infix_of_mem {routines : Array Routine} {source : String} {body : List Step}
    {calls : Nat} (hinlines : Inlines routines source body steps calls)
    (hcallee : callee ∈ calleesOf body) :
    ∃ below callsBelow, InlinesTo routines callee below callsBelow ∧ below <:+: steps := by
  induction hinlines with
  | done => simp at hcallee
  | perform _ ih =>
      obtain ⟨below, callsBelow, hbelow, hinfix⟩ := ih hcallee
      exact ⟨below, callsBelow, hbelow, hinfix.trans (List.suffix_cons _ _).isInfix⟩
  | @call _ _ _ _ _ below steps _ _ hroutine hbelow _ _ ihrest =>
      rcases List.mem_cons.mp hcallee with rfl | hcallee
      · exact ⟨below, _, ⟨_, hroutine, hbelow⟩, (List.prefix_append below steps).isInfix⟩
      · obtain ⟨inner, callsBelow, hinner, hinfix⟩ := ihrest hcallee
        exact ⟨inner, callsBelow, hinner, hinfix.trans (List.suffix_append below steps).isInfix⟩

theorem Measured.flatten_infix_of_calls (hmeasured : Measured program)
    (hcalls : Calls program.routines number callee) :
    program.flatten callee <:+: program.flatten number := by
  have hnumber : number < program.operations.size := by
    simpa [Program.routines] using hcalls.caller_lt
  obtain ⟨calls, routine, hroutine, hinlines⟩ := hmeasured.flatten_inlinesTo hnumber
  obtain ⟨below, callsBelow, hbelow, hinfix⟩ :=
    hinlines.infix_of_mem ((calls_iff_mem hroutine).mp hcalls)
  obtain ⟨calls', hcallee⟩ := hmeasured.flatten_inlinesTo (hmeasured.callee_lt hcalls)
  obtain ⟨rfl, -⟩ := hbelow.unique hcallee
  exact hinfix

/-- The same holds of operations that are reached through several calls. -/
theorem Measured.flatten_infix_of_reaches (hmeasured : Measured program)
    (hreaches : Relation.TransGen (Calls program.routines) number callee) :
    program.flatten callee <:+: program.flatten number := by
  induction hreaches with
  | single hcalls => exact hmeasured.flatten_infix_of_calls hcalls
  | tail _ hcalls ih => exact (hmeasured.flatten_infix_of_calls hcalls).trans ih

/-! ### The check of an operation -/

theorem violations_eq_nil_iff :
    program.violations number .base = [] ↔ KeepsBase (program.flatten number) := by
  simp [violations, collectViolations_eq_nil_iff]

/-- The check against the base profile reports nothing exactly when the inlined steps of an
operation keep the rule; it never reports the same twice, and only on lines of these steps; and an
operation in which it finds nothing calls, directly or through others, only such operations. -/
theorem base_check_decides (haccepted : compile sources limits = .ok program) (number : Nat) :
    (program.violations number .base = [] ↔ KeepsBase (program.flatten number)) ∧
      ((program.violations number .base).map fun error =>
        (error.location?, error.message)).Nodup ∧
      (∀ error ∈ program.violations number .base,
        ∃ step ∈ program.flatten number, error.location? = some step.location) ∧
      (program.violations number .base = [] →
        ∀ callee, Relation.TransGen (Calls program.routines) number callee →
          program.violations callee .base = []) := by
  refine ⟨violations_eq_nil_iff, violations_distinct, fun error herror => ?_,
    fun hnone callee hreaches => ?_⟩
  · obtain hnone | ⟨step, hstep, violation, rfl⟩ := mem_collectViolations herror
    · nomatch hnone
    · exact ⟨step, hstep, rfl⟩
  · have hinfix := (compile_measured haccepted).flatten_infix_of_reaches hreaches
    rw [violations_eq_nil_iff] at hnone ⊢
    exact hnone.sublist hinfix.sublist

/-- An operation that calls another twice, which calls a third to measure a qubit. -/
def measuredTwice : Source :=
  ⟨"twice.qb", "operation A { call B; call B; }\n" ++ "operation B { cx 2, 0; call C; }\n" ++
    "operation C { measure 0; }"⟩

/-- What it parses into. -/
def measuredTwiceFile : Syntax.SourceFile :=
  ⟨"twice.qb", none, [
    ⟨"A", false, 1, [⟨.call ⟨none, "B"⟩, 1⟩, ⟨.call ⟨none, "B"⟩, 1⟩]⟩,
    ⟨"B", false, 2, [⟨.gate ⟨"cx", [], [2, 0]⟩, 2⟩, ⟨.call ⟨none, "C"⟩, 2⟩]⟩,
    ⟨"C", false, 3, [⟨.measure 0, 3⟩]⟩]⟩

/-- What it compiles to. -/
def measuredTwiceProgram : Program :=
  ⟨#[
    ⟨⟨⟨none, "A"⟩, false, ⟨"twice.qb", 1⟩, [⟨.call 1, 1⟩, ⟨.call 1, 1⟩]⟩, ⟨[0, 2], 8, 2⟩⟩,
    ⟨⟨⟨none, "B"⟩, false, ⟨"twice.qb", 2⟩, [
      ⟨.perform (.gate .controlledX [2, 0]), 2⟩, ⟨.call 2, 2⟩]⟩, ⟨[0, 2], 3, 1⟩⟩,
    ⟨⟨⟨none, "C"⟩, false, ⟨"twice.qb", 3⟩, [⟨.perform (.measure 0), 3⟩]⟩, ⟨[0], 1, 0⟩⟩]⟩

theorem compile_measuredTwice : compile [measuredTwice] {} = .ok measuredTwiceProgram := by
  have hparse : parse measuredTwice = .ok measuredTwiceFile := by
    decide +kernel
  have hresolve : resolve [measuredTwiceFile] =
      .ok (measuredTwiceProgram.operations.toList.map (·.toRoutine)) := by
    decide +kernel
  have hfile : compileFiles [measuredTwiceFile] {} = .ok measuredTwiceProgram := by
    rw [compileFiles, hresolve]
    cbv
  exact compile_ok_iff_compileFiles.mpr ⟨_, .cons hparse .nil, hfile⟩

/-- To call the second operation is allowed, and so is what that calls; to call it twice is not. -/
theorem base_check_decides_measuredTwice :
    compile [measuredTwice] {} = .ok measuredTwiceProgram ∧
      measuredTwiceProgram.violations 0 .base = [
        .located ⟨"twice.qb", 2⟩ (.profileViolation (.gateAfterMeasurement 0)),
        .located ⟨"twice.qb", 3⟩ (.profileViolation (.measuredAgain 0))] ∧
      ¬ KeepsBase (measuredTwiceProgram.flatten 0) ∧
      KeepsBase (measuredTwiceProgram.flatten 1) ∧
      measuredTwiceProgram.violations 2 .base = [] := by
  have htwice : measuredTwiceProgram.violations 0 .base = [
      .located ⟨"twice.qb", 2⟩ (.profileViolation (.gateAfterMeasurement 0)),
      .located ⟨"twice.qb", 3⟩ (.profileViolation (.measuredAgain 0))] := by
    decide
  have honce : measuredTwiceProgram.violations 1 .base = [] := by decide
  have hcalls : Calls measuredTwiceProgram.routines 1 2 :=
    ⟨_, routines_getElem? measuredTwiceProgram 1, by decide⟩
  obtain ⟨hdecided, -⟩ := base_check_decides compile_measuredTwice 0
  obtain ⟨hkept, -, -, hcallees⟩ := base_check_decides compile_measuredTwice 1
  refine ⟨compile_measuredTwice, htwice, fun hkeeps => ?_, hkept.mp honce,
    hcallees honce 2 (.single hcalls)⟩
  rw [hdecided.mpr hkeeps] at htwice
  nomatch htwice

end GateBench.Program
