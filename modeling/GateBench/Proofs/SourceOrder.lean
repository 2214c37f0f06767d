import GateBench.Proofs.Renumbering
import GateBench.Proofs.Selection

/-!
The order of sources.  A call is bound by names alone, and figures are those of what is inlined, so
sources in another order compile to the same program but for the numbers of its operations, and
whatever is selected by name or as the entry point stays the same.
-/

namespace GateBench.Program

open GateBench.Syntax

/-- An operation of a program without its number, its callees read as names. -/
structure NamedOperation extends NamedRoutine where
  figures : Figures
deriving DecidableEq

/-- Read the callees of an operation as names. -/
def Operation.named (nameOf : Nat → Option QualifiedName) (operation : Operation) :
    NamedOperation :=
  ⟨operation.toRoutine.named nameOf, operation.figures⟩

/-- All operations of a program, their callees read as names. -/
def named (program : Program) : List NamedOperation :=
  program.operations.toList.map (·.named (nameIn program.routines))

/-- Errors that are the same but for the order in which they name candidates. -/
inductive ProgramError.SameButOrder : ProgramError → ProgramError → Prop
  | same (error : ProgramError) : SameButOrder error error
  | entries {names names' : List QualifiedName} : names.Perm names' →
      SameButOrder (.ambiguousEntryPoint names) (.ambiguousEntryPoint names')
  | candidates (text : String) {names names' : List QualifiedName} : names.Perm names' →
      SameButOrder (.ambiguousName text names) (.ambiguousName text names')

/-- Choices from two programs that are operations of one name, or the same error. -/
inductive SameChoice (program program' : Program) :
    Except ProgramError Nat → Except ProgramError Nat → Prop
  | operation {number number' : Nat} {name : QualifiedName} :
      nameIn program.routines number = some name →
      nameIn program'.routines number' = some name →
      SameChoice program program' (.ok number) (.ok number')
  | refusal {error error' : ProgramError} : error.SameButOrder error' →
      SameChoice program program' (.error error) (.error error')

variable {names names' : List QualifiedName} {scope : Option String} {target : QualifiedName}
  {callee : Nat} {files files' : List SourceFile} {limits : Limits} {program program' : Program}
  {operation : Operation} {sources sources' : List Source}

/-! ### Resolution -/

/-- What is related to things on the left has counterparts that look the same. -/
theorem exists_forall₂_map_eq {α β γ δ : Type} {related : α → β → Prop} {related' : α → γ → Prop}
    {lefts : List α} {rights : List β} (look : β → δ) (look' : γ → δ)
    (hpairs : List.Forall₂ related lefts rights)
    (hcounterpart : ∀ left right, related left right →
      ∃ right', related' left right' ∧ look' right' = look right) :
    ∃ rights', List.Forall₂ related' lefts rights' ∧ rights'.map look' = rights.map look := by
  induction hpairs with
  | nil => exact ⟨[], .nil, rfl⟩
  | cons hpair _ ih =>
      obtain ⟨right', hrelated, hlook⟩ := hcounterpart _ _ hpair
      obtain ⟨others', hothers, hlooks⟩ := ih
      exact ⟨right' :: others', .cons hrelated hothers, congrArg₂ List.cons hlook hlooks⟩

theorem exists_getElem?_of_perm (hperm : names.Perm names') {number : Nat} {name : QualifiedName}
    (hname : names[number]? = some name) : ∃ number' : Nat, names'[number']? = some name :=
  List.getElem?_of_mem (hperm.mem_iff.mp (List.mem_of_getElem? hname))

/-- What a call means does not depend on the order of the names. -/
theorem Determines.of_perm (hperm : names.Perm names') (hnodup : names.Nodup)
    (hdetermines : Determines names scope target callee) :
    ∃ callee' : Nat, Determines names' scope target callee' ∧
      names'[callee']? = names[callee]? := by
  cases hdetermines with
  | dotted hdotted hname =>
      obtain ⟨callee', hname'⟩ := exists_getElem?_of_perm hperm hname
      exact ⟨callee', .dotted hdotted hname', hname'.trans hname.symm⟩
  | sameScope hsimple hname =>
      obtain ⟨callee', hname'⟩ := exists_getElem?_of_perm hperm hname
      exact ⟨callee', .sameScope hsimple hname', hname'.trans hname.symm⟩
  | onlyOne hsimple habsent honly =>
      obtain ⟨name, hname, hsame⟩ := (honly callee).mpr rfl
      obtain ⟨callee', hname'⟩ := exists_getElem?_of_perm hperm hname
      refine ⟨callee', .onlyOne hsimple (fun hmem => habsent (hperm.mem_iff.mpr hmem)) ?_,
        hname'.trans hname.symm⟩
      intro number'
      constructor
      · rintro ⟨other, hother', hotherSame⟩
        obtain ⟨number, hother⟩ := exists_getElem?_of_perm hperm.symm hother'
        obtain rfl := (honly number).mp ⟨other, hother, hotherSame⟩
        obtain rfl := Option.some.inj (hother.symm.trans hname)
        exact (getElem?_eq_some_iff_of_nodup (hperm.nodup_iff.mp hnodup) hname').mp hother'
      · rintro rfl
        exact ⟨name, hname', hsame⟩

theorem ResolvesTo.of_perm (hperm : names.Perm names') (hnodup : names.Nodup) {action : Action}
    {stepAction : StepAction} (hresolves : ResolvesTo names scope action stepAction) :
    ∃ stepAction', ResolvesTo names' scope action stepAction' ∧
      stepAction'.named (names'[·]?) = stepAction.named (names[·]?) := by
  cases hresolves with
  | gate hrow hparameters hqubits hdistinct =>
      exact ⟨_, .gate hrow hparameters hqubits hdistinct, rfl⟩
  | measure qubit => exact ⟨_, .measure qubit, rfl⟩
  | reset qubit => exact ⟨_, .reset qubit, rfl⟩
  | call hdetermines =>
      obtain ⟨callee', hdetermines', hname⟩ := hdetermines.of_perm hperm hnodup
      exact ⟨_, .call hdetermines', congrArg NamedAction.call hname⟩

theorem Resolves.of_perm (hperm : names.Perm names') (hnodup : names.Nodup) {declared : Declared}
    {routine : Routine} (hresolves : Resolves names declared routine) :
    ∃ routine', Resolves names' declared routine' ∧
      routine'.named (names'[·]?) = routine.named (names[·]?) := by
  have hbody : ∃ body', List.Forall₂ (fun statement step =>
        ResolvesTo names' declared.name.scope statement.action step.action ∧
          step.line = statement.line) declared.body body' ∧
      body'.map (Step.named (names'[·]?)) = routine.body.map (Step.named (names[·]?)) := by
    refine exists_forall₂_map_eq _ _ hresolves.body fun statement step hstep => ?_
    obtain ⟨haction, hline⟩ := hstep
    obtain ⟨stepAction', haction', hnamed⟩ := haction.of_perm hperm hnodup
    exact ⟨⟨stepAction', step.line⟩, ⟨haction', hline⟩, congrArg (NamedStep.mk · step.line) hnamed⟩
  obtain ⟨body', hbody', hnamed⟩ := hbody
  refine ⟨⟨declared.name, declared.isEntry, declared.location, body'⟩, ⟨rfl, rfl, rfl, hbody'⟩, ?_⟩
  obtain ⟨_, _, _, _⟩ := routine
  obtain ⟨rfl, rfl, rfl, _⟩ := hresolves
  exact congrArg (NamedRoutine.mk _ _ _) hnamed

theorem nameIn_toArray (routines : List Routine) :
    nameIn routines.toArray = ((routines.map (·.name))[·]?) := by
  funext number
  simp [nameIn]

/-- Files in another order resolve to the same operations but for their numbers. -/
theorem resolve_perm (hperm : files.Perm files') {routines : List Routine}
    (hresolve : resolve files = .ok routines) :
    ∃ routines', resolve files' = .ok routines' ∧
      Renumbers routines.toArray routines'.toArray := by
  obtain ⟨hnodup, hresolved⟩ := resolve_ok_iff.mp hresolve
  have hdeclared : (declaredIn files).Perm (declaredIn files') := hperm.flatMap_right _
  have hnames := hdeclared.map (·.name)
  obtain ⟨others, hothers, hsame⟩ := exists_forall₂_map_eq
    (Routine.named (((declaredIn files).map (·.name))[·]?))
    (Routine.named (((declaredIn files').map (·.name))[·]?)) hresolved
    fun declared routine hresolves => hresolves.of_perm hnames hnodup
  obtain ⟨routines', hresolved', hreordered⟩ := List.perm_comp_forall₂ hdeclared.symm hothers
  have hresolve' := resolve_ok_iff.mpr ⟨hnames.nodup_iff.mp hnodup, hresolved'⟩
  refine ⟨routines', hresolve', ?_, ?_, resolved_callee_lt hresolved,
    resolved_callee_lt hresolved'⟩
  · simp only [namedRoutines, nameIn_toArray, ← resolved_names hresolved,
      ← resolved_names hresolved', ← hsame]
    exact (hreordered.map _).symm
  · rwa [← resolved_names hresolved]

/-! ### Compilation -/

theorem mem_named {operation : NamedOperation} :
    operation ∈ program.named ↔ ∃ found ∈ program.operations,
      found.named (nameIn program.routines) = operation := by
  simp [named]

theorem named_names (program : Program) :
    program.named.map (·.name) = program.routines.toList.map (·.name) := by
  simp [named, Operation.named, Routine.named, Program.routines]

/-- Every operation of a program has a counterpart with the same figures. -/
theorem Renumbers.exists_operation (hsame : Renumbers program.routines program'.routines)
    (hmeasured : Measured program) (hmeasured' : Measured program')
    (hoperation : operation ∈ program.operations) :
    ∃ operation' ∈ program'.operations, operation'.named (nameIn program'.routines) =
      operation.named (nameIn program.routines) := by
  obtain ⟨number, hbound, hnumber⟩ := Array.mem_iff_getElem.mp hoperation
  have hoperation : program.operations[number]? = some operation := by simp [hbound, hnumber]
  have hroutine : program.routines[number]? = some operation.toRoutine := by
    rw [routines_getElem?, hoperation, Option.map_some]
  obtain ⟨number', routine', hroutine', hnamed⟩ := hsame.exists_same hroutine
  rw [routines_getElem?] at hroutine'
  obtain ⟨operation', hoperation', rfl⟩ := Option.map_eq_some_iff.mp hroutine'
  have hname : nameIn program.routines number = some operation'.name := by
    rw [nameIn, hroutine, Option.map_some]
    exact congrArg (fun named => some named.name) hnamed.symm
  have hname' : nameIn program'.routines number' = some operation'.name := by
    rw [nameIn, routines_getElem?, hoperation', Option.map_some, Option.map_some]
  have hfigures : operation'.figures = operation.figures :=
    (hmeasured'.figures number' _ hoperation').unique
      (hsame.areOf ⟨_, hname, hname'⟩ (hmeasured.figures number _ hoperation))
  exact ⟨operation', Array.mem_of_getElem? hoperation', congrArg₂ NamedOperation.mk hnamed hfigures⟩

theorem Renumbers.named_perm (hsame : Renumbers program.routines program'.routines)
    (hmeasured : Measured program) (hmeasured' : Measured program') :
    program.named.Perm program'.named := by
  have hnodup : program.named.Nodup := .of_map _ (named_names program ▸ hsame.distinct)
  have hnodup' : program'.named.Nodup := .of_map _ (named_names program' ▸ hsame.symm.distinct)
  refine (List.perm_ext_iff_of_nodup hnodup hnodup').mpr fun operation => ?_
  constructor
  · intro hmem
    obtain ⟨found, hfound, rfl⟩ := mem_named.mp hmem
    exact mem_named.mpr (hsame.exists_operation hmeasured hmeasured' hfound)
  · intro hmem
    obtain ⟨found, hfound, rfl⟩ := mem_named.mp hmem
    exact mem_named.mpr (hsame.symm.exists_operation hmeasured' hmeasured hfound)

/-- The qubits that a named action acts on itself. -/
def NamedAction.qubits : NamedAction → List Nat
  | .perform instruction => instruction.qubits
  | .call _ => []

theorem StepAction.named_qubits (nameOf : Nat → Option QualifiedName) (action : StepAction) :
    (action.named nameOf).qubits = action.qubits := by
  cases action <;> rfl

/-- Whether an operation acts only on qubits within the limit can be seen without its number. -/
theorem qubitErrors_eq_nil_iff_named (nameOf : Nat → Option QualifiedName) :
    qubitErrors limits operation = [] ↔
      ∀ step ∈ (operation.named nameOf).body, ∀ qubit ∈ step.action.qubits,
        qubit < limits.maxQubits := by
  rw [qubitErrors_eq_nil_iff]
  simp only [Operation.named, Routine.named, List.forall_mem_map, Step.named,
    StepAction.named_qubits]

/-- Files in another order are accepted as well, and the operations are the same but for their
numbers. -/
theorem compileFiles_perm (hperm : files.Perm files')
    (haccepted : compileFiles files limits = .ok program) :
    ∃ program', compileFiles files' limits = .ok program' ∧
      Renumbers program.routines program'.routines ∧ program.named.Perm program'.named := by
  obtain ⟨resolved, hresolve, hnone, rfl, hsizes, hqubits⟩ := compileFiles_ok_iff.mp haccepted
  obtain ⟨resolved', hresolve', hsame⟩ := resolve_perm hperm hresolve
  have hnone' : (callOrder resolved'.toArray.size (callsIn resolved'.toArray)).cycles = [] :=
    (callOrder_callsIn_cycles_eq_nil_iff hsame.closed').mpr
      (hsame.acyclic ((callOrder_callsIn_cycles_eq_nil_iff hsame.closed).mp hnone))
  have hmeasured := Measured.ofRoutines hsame.closed hnone
  have hmeasured' := Measured.ofRoutines hsame.closed' hnone'
  rw [← ofRoutines_routines resolved.toArray, ← ofRoutines_routines resolved'.toArray] at hsame
  refine ⟨_, compileFiles_ok_iff.mpr ⟨resolved', hresolve', hnone', rfl, ?_, ?_⟩, hsame,
    hsame.named_perm hmeasured hmeasured'⟩
  · refine hmeasured'.sizeErrors_eq_nil_iff.mpr fun operation' hoperation' => ?_
    obtain ⟨operation, hoperation, hnamed⟩ :=
      hsame.symm.exists_operation hmeasured' hmeasured hoperation'
    have hfigures : operation.figures = operation'.figures := congrArg NamedOperation.figures hnamed
    rw [← hfigures]
    exact hmeasured.sizeErrors_eq_nil_iff.mp hsizes operation hoperation
  · intro operation' hoperation'
    obtain ⟨operation, hoperation, hnamed⟩ :=
      hsame.symm.exists_operation hmeasured' hmeasured hoperation'
    rw [qubitErrors_eq_nil_iff_named, ← hnamed]
    exact (qubitErrors_eq_nil_iff_named _).mp (hqubits operation hoperation)

theorem compile_of_perm (hperm : sources.Perm sources')
    (haccepted : compile sources limits = .ok program) :
    ∃ program', compile sources' limits = .ok program' ∧
      Renumbers program.routines program'.routines ∧ program.named.Perm program'.named := by
  obtain ⟨files, hparsed, hcompiled⟩ := compile_ok_iff_compileFiles.mp haccepted
  obtain ⟨files', hparsed', hfiles⟩ := List.perm_comp_forall₂ hperm.symm hparsed
  obtain ⟨program', hcompiled', hsame⟩ := compileFiles_perm hfiles.symm hcompiled
  exact ⟨program', compile_ok_iff_compileFiles.mpr ⟨files', hparsed', hcompiled'⟩, hsame⟩

/-! ### Choices -/

/-- The numbers of the operations of a kind that can be told without numbers. -/
def picked (program : Program) (pick : NamedOperation → Bool) : List Nat :=
  program.numbersWhere fun operation => pick (operation.named (nameIn program.routines))

theorem filter_named (program : Program) (pick : NamedOperation → Bool) :
    program.named.filter pick = (program.operations.toList.filter fun operation =>
      pick (operation.named (nameIn program.routines))).map
        (·.named (nameIn program.routines)) := by
  rw [named, List.filter_map]
  rfl

theorem namesOf_picked (program : Program) (pick : NamedOperation → Bool) :
    program.namesOf (program.picked pick) = (program.named.filter pick).map (·.name) := by
  rw [picked, namesOf_numbersWhere, filter_named, List.map_map]
  rfl

theorem length_picked (program : Program) (pick : NamedOperation → Bool) :
    (program.picked pick).length = (program.named.filter pick).length := by
  rw [picked, length_numbersWhere, List.countP_eq_length_filter, filter_named, List.length_map]

theorem exists_name_of_picked {pick : NamedOperation → Bool} {number : Nat}
    (hpicked : program.picked pick = [number]) :
    ∃ name, nameIn program.routines number = some name ∧ program.namesOf [number] = [name] := by
  obtain ⟨operation, hoperation, -⟩ :=
    mem_numbersWhere.mp (hpicked ▸ List.mem_singleton_self number)
  refine ⟨operation.name, ?_, by simp [namesOf, hoperation]⟩
  rw [nameIn, routines_getElem?, hoperation, Option.map_some, Option.map_some]

/-- The only operation of a kind that can be told without numbers is the same in both programs. -/
theorem onlyOf_sameChoice (hnamed : program.named.Perm program'.named)
    (pick : NamedOperation → Bool) (missing : ProgramError)
    {ambiguous : List QualifiedName → ProgramError}
    (hambiguous : ∀ names names' : List QualifiedName, names.Perm names' →
      (ambiguous names).SameButOrder (ambiguous names')) :
    SameChoice program program' (program.onlyOf (program.picked pick) missing ambiguous)
      (program'.onlyOf (program'.picked pick) missing ambiguous) := by
  have hnames := (hnamed.filter pick).map (·.name)
  have hlength := (hnamed.filter pick).length_eq
  rw [← namesOf_picked, ← namesOf_picked] at hnames
  rw [← length_picked, ← length_picked] at hlength
  match hnumbers : program.picked pick, hnumbers' : program'.picked pick with
  | [], [] => exact .refusal (.same missing)
  | [number], [number'] =>
      obtain ⟨name, hname, hshown⟩ := exists_name_of_picked hnumbers
      obtain ⟨name', hname', hshown'⟩ := exists_name_of_picked hnumbers'
      rw [hnumbers, hnumbers', hshown, hshown', List.perm_singleton] at hnames
      obtain rfl := List.singleton_inj.mp hnames
      exact .operation hname hname'
  | first :: second :: others, first' :: second' :: others' =>
      rw [hnumbers, hnumbers'] at hnames
      exact .refusal (hambiguous _ _ hnames)
  | [], _ :: _ | _ :: _, [] | [_], _ :: _ :: _ | _ :: _ :: _, [_] =>
      simp [hnumbers, hnumbers'] at hlength

theorem findText_sameChoice (hnamed : program.named.Perm program'.named) (text : String) :
    SameChoice program program' (program.findText text) (program'.findText text) :=
  onlyOf_sameChoice hnamed
    (fun operation => operation.name.name = (QualifiedName.ofText text).name &&
      ((QualifiedName.ofText text).scope.isNone ||
        operation.name.scope = (QualifiedName.ofText text).scope))
    (.operationNotFound text) fun _ _ => .candidates text

theorem entry_sameChoice (hnamed : program.named.Perm program'.named) (requested : Option String) :
    SameChoice program program' (program.entry requested) (program'.entry requested) := by
  cases requested with
  | some text => exact findText_sameChoice hnamed text
  | none => exact onlyOf_sameChoice hnamed (·.isEntry) .noEntryPoint fun _ _ => .entries

/-- Every callee has a name. -/
theorem Renumbers.callee_named (hsame : Renumbers program.routines program'.routines) :
    ∀ operation ∈ program.named, ∀ step ∈ operation.body, step.action ≠ .call none := by
  intro operation hoperation step hstep haction
  obtain ⟨found, hfound, rfl⟩ := mem_named.mp hoperation
  obtain ⟨⟨action, line⟩, hmem, rfl⟩ := List.mem_map.mp hstep
  cases action with
  | perform => cases haction
  | call callee =>
      have hroutine : found.toRoutine ∈ program.routines := Array.mem_map_of_mem hfound
      have hbound := hsame.closed _ hroutine callee (List.mem_filterMap.mpr ⟨_, hmem, rfl⟩)
      have hmissing := NamedAction.call.inj haction
      rw [nameIn, Array.getElem?_eq_getElem hbound] at hmissing
      cases hmissing

/-- Sources in another order compile to the same program but for the numbers of its operations. -/
theorem compile_perm (hperm : sources.Perm sources') (limits : Limits) :
    ((∃ program, compile sources limits = .ok program) ↔
      ∃ program, compile sources' limits = .ok program) ∧
    ∀ program program', compile sources limits = .ok program →
      compile sources' limits = .ok program' →
      program.named.Perm program'.named ∧ (program.named.map (·.name)).Nodup ∧
      (∀ operation ∈ program.named, ∀ step ∈ operation.body, step.action ≠ .call none) ∧
      (∀ requested, SameChoice program program' (program.entry requested)
        (program'.entry requested)) ∧
      ∀ text, SameChoice program program' (program.findText text) (program'.findText text) := by
  refine ⟨⟨?_, ?_⟩, fun program program' haccepted haccepted' => ?_⟩
  · rintro ⟨program, haccepted⟩
    obtain ⟨program', haccepted', -⟩ := compile_of_perm hperm haccepted
    exact ⟨program', haccepted'⟩
  · rintro ⟨program, haccepted⟩
    obtain ⟨program', haccepted', -⟩ := compile_of_perm hperm.symm haccepted
    exact ⟨program', haccepted'⟩
  · obtain ⟨found, hfound, hsame, hnamed⟩ := compile_of_perm hperm haccepted
    obtain rfl := Except.ok.inj (hfound.symm.trans haccepted')
    exact ⟨hnamed, named_names program ▸ hsame.distinct, hsame.callee_named,
      entry_sameChoice hnamed, findText_sameChoice hnamed⟩

/-- An operation that calls one of another source. -/
def callAcross : List Source :=
  [⟨"outer.qb", "@entry operation A { call B; }"⟩, ⟨"inner.qb", "operation B { reset 1; }"⟩]

/-- What they compile to. -/
def callAcrossProgram : Program :=
  ⟨#[
    ⟨⟨⟨none, "A"⟩, true, ⟨"outer.qb", 1⟩, [⟨.call 1, 1⟩]⟩, ⟨[1], 2, 1⟩⟩,
    ⟨⟨⟨none, "B"⟩, false, ⟨"inner.qb", 1⟩, [⟨.perform (.reset 1), 1⟩]⟩, ⟨[1], 1, 0⟩⟩]⟩

theorem compile_callAcross : compile callAcross {} = .ok callAcrossProgram := by
  have houter : parse ⟨"outer.qb", "@entry operation A { call B; }"⟩ =
      .ok ⟨"outer.qb", none, [⟨"A", true, 1, [⟨.call ⟨none, "B"⟩, 1⟩]⟩]⟩ := by
    decide +kernel
  have hinner : parse ⟨"inner.qb", "operation B { reset 1; }"⟩ =
      .ok ⟨"inner.qb", none, [⟨"B", false, 1, [⟨.reset 1, 1⟩]⟩]⟩ := by
    decide +kernel
  refine compile_ok_iff_compileFiles.mpr ⟨_, .cons houter (.cons hinner .nil), ?_⟩
  cbv

/-- With the sources the other way round, the same operation is the entry point. -/
theorem compile_perm_callAcross :
    callAcross.Perm callAcross.reverse ∧ compile callAcross {} = .ok callAcrossProgram ∧
      ∃ program, compile callAcross.reverse {} = .ok program ∧
        callAcrossProgram.named.Perm program.named ∧
        SameChoice callAcrossProgram program (.ok 0) (program.entry none) := by
  have hperm : callAcross.Perm callAcross.reverse := (List.reverse_perm _).symm
  obtain ⟨hboth, hsame⟩ := compile_perm hperm {}
  obtain ⟨program, haccepted⟩ := hboth.mp ⟨_, compile_callAcross⟩
  obtain ⟨hnamed, -, -, hentry, -⟩ := hsame _ _ compile_callAcross haccepted
  exact ⟨hperm, compile_callAcross, program, haccepted, hnamed, hentry none⟩

end GateBench.Program
