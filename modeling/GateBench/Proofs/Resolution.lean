import GateBench.Program.Compile
import Mathlib.Data.List.Basic
import Mathlib.Data.List.Nodup

/-!
What resolution accepts: gates of the table applied to the right numbers of angles and of distinct
qubits, and calls whose target determines one operation.
-/

namespace GateBench.Program

open GateBench.Syntax

/-- `Determines names scope target callee`: a call made in the namespace `scope` means the operation
numbered `callee`. -/
inductive Determines (names : List QualifiedName) (scope : Option String) (target : QualifiedName)
    (callee : Nat) : Prop
  /-- A dotted target means the operation of exactly that name. -/
  | dotted : target.scope.isSome → names[callee]? = some target →
      Determines names scope target callee
  /-- A simple target means the operation of that name in the namespace of the call. -/
  | sameScope : target.scope = none → names[callee]? = some ⟨scope, target.name⟩ →
      Determines names scope target callee
  /-- Without one there, it means the only operation of that simple name. -/
  | onlyOne : target.scope = none → ⟨scope, target.name⟩ ∉ names →
      (∀ number : Nat, (∃ name, names[number]? = some name ∧ name.name = target.name) ↔
        number = callee) →
      Determines names scope target callee

/-- `ResolvesTo names scope action stepAction`: what a statement of the namespace `scope` does. -/
inductive ResolvesTo (names : List QualifiedName) (scope : Option String) :
    Action → StepAction → Prop
  | gate {call : GateCall} {row : GateRow} :
      gateRow? call.name = some row → call.parameters.length = row.parameters →
      call.qubits.length = row.qubits → call.qubits.Nodup →
      ResolvesTo names scope (.gate call)
        (.perform (.gate (row.gate ((call.parameters.head?.map (·.value)).getD 0.0)) call.qubits))
  | measure (qubit : Nat) : ResolvesTo names scope (.measure qubit) (.perform (.measure qubit))
  | reset (qubit : Nat) : ResolvesTo names scope (.reset qubit) (.perform (.reset qubit))
  | call {target : QualifiedName} {callee : Nat} : Determines names scope target callee →
      ResolvesTo names scope (.call target) (.call callee)

/-- A routine is what a declared operation resolves to, statement by statement. -/
structure Resolves (names : List QualifiedName) (declared : Declared) (routine : Routine) :
    Prop where
  name : routine.name = declared.name
  isEntry : routine.isEntry = declared.isEntry
  location : routine.location = declared.location
  body : List.Forall₂ (fun statement step =>
      ResolvesTo names declared.name.scope statement.action step.action ∧
        step.line = statement.line) declared.body routine.body

variable {names earlier : List QualifiedName} {scope : Option String} {target : QualifiedName}
  {callee number : Nat}

theorem map_eq_ok_iff {ε α β : Type} {result : Except ε α} {f : α → β} {value : β} :
    result.map f = .ok value ↔ ∃ inner, result = .ok inner ∧ f inner = value := by
  cases result <;> simp [Except.map]

theorem mapError_eq_ok_iff {ε ε' α : Type} {result : Except ε α} {f : ε → ε'} {value : α} :
    result.mapError f = .ok value ↔ result = .ok value := by
  cases result <;> simp [Except.mapError]

theorem mapError_eq_error_iff {ε ε' α : Type} {result : Except ε α} {f : ε → ε'} {error : ε'} :
    result.mapError f = .error error ↔ ∃ inner, result = .error inner ∧ f inner = error := by
  cases result <;> simp [Except.mapError]

theorem bind_eq_ok_iff {ε α β : Type} {result : Except ε α} {next : α → Except ε β} {value : β} :
    result >>= next = .ok value ↔ ∃ found, result = .ok found ∧ next found = .ok value := by
  cases result <;> simp [Bind.bind, Except.bind]

theorem bind_eq_error_iff {ε α β : Type} {result : Except ε α} {next : α → Except ε β} {error : ε} :
    result >>= next = .error error ↔
      result = .error error ∨ ∃ found, result = .ok found ∧ next found = .error error := by
  cases result <;> simp [Bind.bind, Except.bind]

/-- What stands on the right of a pairing has something on its left. -/
theorem exists_of_forall₂_of_mem {α β : Type} {related : α → β → Prop} {lefts : List α}
    {rights : List β} (hpairs : List.Forall₂ related lefts rights) {right : β}
    (hmem : right ∈ rights) : ∃ left ∈ lefts, related left right := by
  induction hpairs with
  | nil => nomatch hmem
  | cons hpair hothers ih =>
      rcases List.mem_cons.mp hmem with rfl | hmem
      · exact ⟨_, List.mem_cons_self, hpair⟩
      · obtain ⟨left, hleft, hrelated⟩ := ih hmem
        exact ⟨left, List.mem_cons_of_mem _ hleft, hrelated⟩

/-! ### Gates -/

theorem firstRepeated?_eq_none_iff {earlier qubits : List Nat} :
    firstRepeated? earlier qubits = none ↔
      qubits.Nodup ∧ ∀ qubit ∈ qubits, qubit ∉ earlier := by
  induction qubits generalizing earlier with
  | nil => simp [firstRepeated?]
  | cons first others ih =>
      simp only [firstRepeated?]
      split
      · rename_i hearlier
        simp [hearlier]
      · rename_i hearlier
        rw [ih, List.nodup_cons]
        constructor
        · rintro ⟨hnodup, hothers⟩
          refine ⟨⟨fun hmem => hothers first hmem List.mem_cons_self, hnodup⟩, ?_⟩
          intro qubit hqubit
          rcases List.mem_cons.mp hqubit with rfl | hqubit
          · exact hearlier
          · exact fun hmem => hothers qubit hqubit (List.mem_cons_of_mem _ hmem)
        · rintro ⟨⟨hfirst, hnodup⟩, hqubits⟩
          refine ⟨hnodup, fun qubit hqubit hmem => ?_⟩
          rcases List.mem_cons.mp hmem with rfl | hmem
          · exact hfirst hqubit
          · exact hqubits qubit (List.mem_cons_of_mem _ hqubit) hmem

theorem resolveGate_ok_iff {call : GateCall} {instruction : Instruction} :
    resolveGate call = .ok instruction ↔
      ∃ row, gateRow? call.name = some row ∧ call.parameters.length = row.parameters ∧
        call.qubits.length = row.qubits ∧ call.qubits.Nodup ∧
        .gate (row.gate ((call.parameters.head?.map (·.value)).getD 0.0)) call.qubits =
          instruction := by
  have hrepeated : firstRepeated? [] call.qubits = none ↔ call.qubits.Nodup := by
    simp [firstRepeated?_eq_none_iff]
  unfold resolveGate
  cases gateRow? call.name with
  | none => simp
  | some row =>
      simp only [Option.some.injEq, exists_eq_left']
      split
      · rename_i hparameters
        simp [hparameters]
      · rename_i hparameters
        split
        · rename_i hqubits
          simp [hqubits]
        · rename_i hqubits
          cases hfirst : firstRepeated? [] call.qubits with
          | none => simp [not_not.mp hparameters, not_not.mp hqubits, hrepeated.mp hfirst]
          | some qubit =>
              have hnodup : ¬ call.qubits.Nodup := by simp [← hrepeated, hfirst]
              simp [hnodup]

/-! ### Calls -/

theorem getElem?_eq_some_iff_of_nodup {α : Type} {values : List α} {first second : Nat} {value : α}
    (hnodup : values.Nodup) (hfirst : values[first]? = some value) :
    values[second]? = some value ↔ second = first := by
  constructor
  · intro hsecond
    have hbound := (List.getElem?_eq_some_iff.mp hsecond).1
    exact (List.getElem?_inj hbound hnodup).mp (hsecond.trans hfirst.symm)
  · rintro rfl
    exact hfirst

theorem idxOf?_eq_some_iff_getElem? (hnodup : names.Nodup) {name : QualifiedName} :
    names.idxOf? name = some number ↔ names[number]? = some name := by
  constructor
  · intro hindex
    obtain ⟨hbound, hvalue, _⟩ := List.findIdx?_eq_some_iff_getElem.mp hindex
    rw [List.getElem?_eq_getElem hbound, beq_iff_eq.mp hvalue]
  · intro hvalue
    cases hindex : names.idxOf? name with
    | none =>
        have hmem := List.idxOf?_eq_none_iff.mp hindex
        exact absurd (List.mem_of_getElem? hvalue) hmem
    | some found =>
        obtain ⟨hbound, hfound, _⟩ := List.findIdx?_eq_some_iff_getElem.mp hindex
        have hfound' : names[found]? = some name := by
          rw [List.getElem?_eq_getElem hbound, beq_iff_eq.mp hfound]
        rw [(getElem?_eq_some_iff_of_nodup hnodup hfound').mp hvalue]

theorem mem_numbersOf {wanted : QualifiedName → Bool} :
    number ∈ numbersOf names wanted ↔ ∃ name, names[number]? = some name ∧ wanted name := by
  simp only [numbersOf, List.mem_filter, List.mem_range, Option.any_eq_true]
  constructor
  · exact fun hnumber => hnumber.2
  · rintro ⟨name, hname, hwanted⟩
    exact ⟨(List.getElem?_eq_some_iff.mp hname).1, name, hname, hwanted⟩

theorem numbersOf_nodup (names : List QualifiedName) (wanted : QualifiedName → Bool) :
    (numbersOf names wanted).Nodup :=
  List.nodup_range.filter _

theorem numbersOf_eq_singleton_iff {wanted : QualifiedName → Bool} :
    numbersOf names wanted = [callee] ↔
      ∀ number : Nat, (∃ name, names[number]? = some name ∧ wanted name) ↔ number = callee := by
  constructor
  · intro hnumbers number
    rw [← mem_numbersOf, hnumbers, List.mem_singleton]
  · intro hnumbers
    have hperm : (numbersOf names wanted).Perm [callee] :=
      (List.perm_ext_iff_of_nodup (numbersOf_nodup _ _) (List.nodup_singleton _)).mpr
        fun number => by rw [mem_numbersOf, hnumbers, List.mem_singleton]
    exact List.perm_singleton.mp hperm

theorem determines_dotted_iff (hdotted : target.scope.isSome) :
    Determines names scope target callee ↔ names[callee]? = some target := by
  have hscope : target.scope ≠ none := by simpa [Option.isSome_iff_ne_none] using hdotted
  constructor
  · intro hcallee
    cases hcallee with
    | dotted _ hname => exact hname
    | sameScope hnone => exact absurd hnone hscope
    | onlyOne hnone => exact absurd hnone hscope
  · exact fun hname => .dotted hdotted hname

theorem determines_sameScope_iff (hnodup : names.Nodup) (hscope : target.scope = none)
    (hfound : names[number]? = some ⟨scope, target.name⟩) :
    Determines names scope target callee ↔ number = callee := by
  constructor
  · intro hcallee
    cases hcallee with
    | dotted hsome => simp [hscope] at hsome
    | sameScope _ hname => exact ((getElem?_eq_some_iff_of_nodup hnodup hfound).mp hname).symm
    | onlyOne _ habsent => exact absurd (List.mem_of_getElem? hfound) habsent
  · rintro rfl
    exact .sameScope hscope hfound

theorem determines_onlyOne_iff (hscope : target.scope = none)
    (habsent : ⟨scope, target.name⟩ ∉ names) :
    Determines names scope target callee ↔
      numbersOf names (·.name = target.name) = [callee] := by
  simp only [numbersOf_eq_singleton_iff, decide_eq_true_eq]
  constructor
  · intro hcallee
    cases hcallee with
    | dotted hsome => simp [hscope] at hsome
    | sameScope _ hname => exact absurd (List.mem_of_getElem? hname) habsent
    | onlyOne _ _ honly => exact honly
  · exact fun honly => .onlyOne hscope habsent honly

theorem resolveCall_ok_iff (hnodup : names.Nodup) :
    resolveCall names scope target = .ok callee ↔ Determines names scope target callee := by
  unfold resolveCall
  by_cases hdotted : target.scope.isSome
  · rw [if_pos hdotted, determines_dotted_iff hdotted, ← idxOf?_eq_some_iff_getElem? hnodup]
    cases names.idxOf? target <;> simp
  · have hscope : target.scope = none := by simpa using hdotted
    rw [if_neg hdotted]
    cases hindex : names.idxOf? ⟨scope, target.name⟩ with
    | some found =>
        have hfound := (idxOf?_eq_some_iff_getElem? hnodup).mp hindex
        rw [determines_sameScope_iff hnodup hscope hfound]
        simp only [Except.ok.injEq]
    | none =>
        rw [determines_onlyOne_iff hscope (List.idxOf?_eq_none_iff.mp hindex)]
        simp only
        split
        · rename_i hnumbers
          simp [hnumbers]
        · rename_i number hnumbers
          simp [hnumbers]
        · rename_i hseveral
          simp only [reduceCtorEq, false_iff]
          exact hseveral callee

theorem Determines.lt_length (hcallee : Determines names scope target callee) :
    callee < names.length := by
  cases hcallee with
  | dotted _ hname => exact (List.getElem?_eq_some_iff.mp hname).1
  | sameScope _ hname => exact (List.getElem?_eq_some_iff.mp hname).1
  | onlyOne _ _ honly =>
      obtain ⟨name, hname, _⟩ := (honly callee).mpr rfl
      exact (List.getElem?_eq_some_iff.mp hname).1

/-! ### Statements -/

theorem resolveAction_ok_iff (hnodup : names.Nodup) {action : Action} {stepAction : StepAction} :
    resolveAction names scope action = .ok stepAction ↔
      ResolvesTo names scope action stepAction := by
  cases action with
  | gate call =>
      simp only [resolveAction, map_eq_ok_iff, resolveGate_ok_iff]
      constructor
      · rintro ⟨instruction, ⟨row, hrow, hparameters, hqubits, hdistinct, rfl⟩, rfl⟩
        exact .gate hrow hparameters hqubits hdistinct
      · rintro (⟨hrow, hparameters, hqubits, hdistinct⟩)
        exact ⟨_, ⟨_, hrow, hparameters, hqubits, hdistinct, rfl⟩, rfl⟩
  | measure qubit =>
      simp only [resolveAction, Except.ok.injEq]
      constructor
      · rintro rfl
        exact .measure qubit
      · rintro ⟨⟩
        rfl
  | reset qubit =>
      simp only [resolveAction, Except.ok.injEq]
      constructor
      · rintro rfl
        exact .reset qubit
      · rintro ⟨⟩
        rfl
  | call target =>
      simp only [resolveAction, map_eq_ok_iff, resolveCall_ok_iff hnodup]
      constructor
      · rintro ⟨callee, hcallee, rfl⟩
        exact .call hcallee
      · rintro (_ | _ | _ | hcallee)
        exact ⟨_, hcallee, rfl⟩

/-! ### Bodies -/

theorem splitResults_map_eq_iff {ε α β : Type} {f : α → Except ε β} {meaning : α → β → Prop}
    (hmeaning : ∀ input value, f input = .ok value ↔ meaning input value) (inputs : List α)
    (values : List β) :
    splitResults (inputs.map f) = ([], values) ↔ List.Forall₂ meaning inputs values := by
  induction inputs generalizing values with
  | nil => cases values <;> simp [splitResults]
  | cons input others ih =>
      simp only [splitResults, Prod.mk.injEq] at ih
      cases values with
      | nil => cases hinput : f input <;> simp [splitResults, hinput]
      | cons value rest =>
          rw [List.forall₂_cons, ← hmeaning, ← ih]
          cases hinput : f input <;> simp [splitResults, hinput, and_left_comm]

theorem splitResults_fst_mem {ε α : Type} {results : List (Except ε α)} {error : ε} :
    error ∈ (splitResults results).1 ↔ .error error ∈ results := by
  simp only [splitResults, List.mem_filterMap]
  constructor
  · rintro ⟨result, hresult, herror⟩
    cases result with
    | ok value => simp at herror
    | error found => simpa [Option.some.inj herror] using hresult
  · exact fun herror => ⟨_, herror, rfl⟩

theorem resolveBody_ok_iff (hnodup : names.Nodup) {declared : Declared} {routine : Routine} :
    resolveBody names declared = .ok routine ↔ Resolves names declared routine := by
  unfold resolveBody
  extract_lets results
  have hsteps (steps : List Step) : splitResults results = ([], steps) ↔
      List.Forall₂ (fun statement step =>
        ResolvesTo names declared.name.scope statement.action step.action ∧
          step.line = statement.line) declared.body steps := by
    refine splitResults_map_eq_iff (fun statement step => ?_) declared.body steps
    rw [← resolveAction_ok_iff hnodup]
    obtain ⟨action, line⟩ := step
    cases resolveAction names declared.name.scope statement.action with
    | error cause => simp
    | ok resolved => simp [eq_comm]
  split
  · rename_i steps hsplit
    simp only [Except.ok.injEq]
    constructor
    · rintro rfl
      exact ⟨rfl, rfl, rfl, (hsteps steps).mp hsplit⟩
    · intro hresolves
      have hbody := hsplit.symm.trans ((hsteps routine.body).mpr hresolves.body)
      cases routine
      simp only [Routine.mk.injEq]
      exact ⟨hresolves.name.symm, hresolves.isEntry.symm, hresolves.location.symm,
        congrArg Prod.snd hbody⟩
  · rename_i hnone hsplit
    simp only [reduceCtorEq, false_iff]
    intro hresolves
    have hbody := hsplit.symm.trans ((hsteps routine.body).mpr hresolves.body)
    exact hnone (congrArg Prod.fst hbody)

theorem ResolvesTo.callee_lt_length {action : Action} {stepAction : StepAction}
    (hresolves : ResolvesTo names scope action stepAction) :
    ∀ callee ∈ stepAction.callee?, callee < names.length := by
  cases hresolves with
  | call hdetermines =>
      rintro callee ⟨⟩
      exact hdetermines.lt_length
  | gate | measure | reset => simp [StepAction.callee?]

/-- A resolved routine calls operations that exist. -/
theorem Resolves.callee_lt_length {declared : Declared} {routine : Routine}
    (hresolves : Resolves names declared routine) :
    ∀ callee ∈ routine.callees, callee < names.length := by
  intro callee hcallee
  obtain ⟨step, hstep, hcalled⟩ := List.mem_filterMap.mp hcallee
  obtain ⟨statement, -, hresolved, -⟩ := exists_of_forall₂_of_mem hresolves.body hstep
  exact hresolved.callee_lt_length callee hcalled

theorem resolveBody_error_ne_nil {declared : Declared} {errors : List ProgramError}
    (hresult : resolveBody names declared = .error errors) : errors ≠ [] := by
  unfold resolveBody at hresult
  simp only at hresult
  split at hresult
  · simp at hresult
  · rename_i hnone hsplit
    cases hresult
    exact hnone

/-! ### All operations -/

theorem splitRepeated_snd_eq_nil_iff {declared : List Declared} :
    (splitRepeated earlier declared).2 = [] ↔
      (declared.map (·.name)).Nodup ∧ ∀ name ∈ declared.map (·.name), name ∉ earlier := by
  induction declared generalizing earlier with
  | nil => simp [splitRepeated]
  | cons first others ih =>
      simp only [splitRepeated]
      split
      · rename_i hearlier
        simp [hearlier]
      · rename_i hearlier
        rw [ih, List.map_cons, List.nodup_cons]
        constructor
        · rintro ⟨hnodup, hothers⟩
          refine ⟨⟨fun hmem => hothers _ hmem List.mem_cons_self, hnodup⟩, fun name hname => ?_⟩
          rcases List.mem_cons.mp hname with rfl | hname
          · exact hearlier
          · exact fun hmem => hothers name hname (List.mem_cons_of_mem _ hmem)
        · rintro ⟨⟨hfirst, hnodup⟩, hnames⟩
          refine ⟨hnodup, fun name hname hmem => ?_⟩
          rcases List.mem_cons.mp hmem with rfl | hmem
          · exact hfirst hname
          · exact hnames name (List.mem_cons_of_mem _ hname) hmem

theorem splitRepeated_fst {declared : List Declared}
    (hnone : (splitRepeated earlier declared).2 = []) :
    (splitRepeated earlier declared).1 = declared := by
  induction declared generalizing earlier with
  | nil => rfl
  | cons first others ih =>
      simp only [splitRepeated] at hnone ⊢
      split at hnone
      · simp at hnone
      · rename_i hearlier
        rw [if_neg hearlier]
        simp only [ih hnone]

theorem splitRepeated_fst_names_nodup (earlier : List QualifiedName) (declared : List Declared) :
    ((splitRepeated earlier declared).1.map (·.name)).Nodup ∧
      ∀ name ∈ (splitRepeated earlier declared).1.map (·.name), name ∉ earlier := by
  induction declared generalizing earlier with
  | nil => simp [splitRepeated]
  | cons first others ih =>
      simp only [splitRepeated]
      split
      · exact ih earlier
      · rename_i hearlier
        obtain ⟨hnodup, hothers⟩ := ih (first.name :: earlier)
        simp only [List.mem_cons, not_or] at hothers
        simp only [List.map_cons, List.nodup_cons, List.forall_mem_cons]
        exact ⟨⟨fun hmem => (hothers _ hmem).1 rfl, hnodup⟩, hearlier,
          fun name hname => (hothers name hname).2⟩

/-- Files resolve exactly when their operations have different names and every statement has a
meaning. -/
theorem resolve_ok_iff {files : List SourceFile} {routines : List Routine} :
    resolve files = .ok routines ↔
      ((declaredIn files).map (·.name)).Nodup ∧
        List.Forall₂ (Resolves ((declaredIn files).map (·.name))) (declaredIn files) routines := by
  unfold resolve
  generalize declaredIn files = declared
  have hnodup := (splitRepeated_fst_names_nodup [] declared).1
  have hrepeated := @splitRepeated_snd_eq_nil_iff [] declared
  have hkept := @splitRepeated_fst [] declared
  rcases hsplit : splitRepeated [] declared with ⟨kept, repeated⟩
  rw [hsplit] at hnodup hrepeated hkept
  simp only [List.not_mem_nil, not_false_eq_true, implies_true, and_true] at hnodup hrepeated hkept
  have herrors : ∀ errors ∈ (splitResults (kept.map (resolveBody (kept.map (·.name))))).1,
      errors ≠ [] := fun errors hmem => by
    obtain ⟨declared, -, hresult⟩ := List.mem_map.mp (splitResults_fst_mem.mp hmem)
    exact resolveBody_error_ne_nil hresult
  have hbodies : splitResults (kept.map (resolveBody (kept.map (·.name)))) = ([], routines) ↔
      List.Forall₂ (Resolves (kept.map (·.name))) kept routines :=
    splitResults_map_eq_iff (fun _ _ => resolveBody_ok_iff hnodup) kept routines
  rcases hresults : splitResults (kept.map (resolveBody (kept.map (·.name)))) with
    ⟨bodyErrors, found⟩
  rw [hresults] at herrors hbodies
  cases repeated with
  | cons first others => simp_all
  | nil =>
      obtain rfl := hkept rfl
      cases bodyErrors with
      | nil => simp [hresults, ← hbodies, hnodup]
      | cons errors others =>
          have hnonempty := herrors errors List.mem_cons_self
          simp [hresults, ← hbodies, hnonempty]

end GateBench.Program
