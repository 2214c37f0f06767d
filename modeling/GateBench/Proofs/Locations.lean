import GateBench.Proofs.BaseRule
import GateBench.Proofs.Operands
import GateBench.Proofs.SourceLines
import GateBench.Proofs.SourceOrder

/-!
Locations of errors.  Parsing takes lines from the tokens of its source, and every later stage only
copies them: into declarations, into the steps of operations, and along calls into other sources.
So whatever is wrong with a program is reported on a line that exists.
-/

namespace GateBench

/-- A location is a line of one of the sources. -/
def Location.IsIn (sources : List Source) (location : Location) : Prop :=
  ∃ source ∈ sources, source.name = location.source ∧ source.HasLine location.line

namespace Program

open GateBench.Syntax

/-- An error that has a location has one in the sources; the end of the input is that of one of
them. -/
def ProgramError.IsIn (sources : List Source) : ProgramError → Prop
  | .located location _ => location.IsIn sources
  | .unexpectedEnd name _ => ∃ source ∈ sources, source.name = name
  | .noEntryPoint | .ambiguousEntryPoint _ | .operationNotFound _ | .ambiguousName _ _ => True

/-- A declared operation and its statements stand on lines of the sources. -/
def Declared.IsIn (sources : List Source) (declared : Declared) : Prop :=
  declared.location.IsIn sources ∧
    ∀ statement ∈ declared.body,
      (⟨declared.location.source, statement.line⟩ : Location).IsIn sources

/-- A resolved operation and its steps stand on lines of the sources. -/
def Routine.IsIn (sources : List Source) (routine : Routine) : Prop :=
  routine.location.IsIn sources ∧
    ∀ step ∈ routine.body, (⟨routine.location.source, step.line⟩ : Location).IsIn sources

variable {sources : List Source} {source : Source} {limits : Limits} {program : Program}

/-! ### Parsing -/

theorem validTokens_error {items : List Item} {chars : String} {line : Nat}
    (hinvalid : validTokens items = .error (chars, line)) : ∃ item ∈ items, item.line = line := by
  obtain ⟨bad, hfirst, -, hline⟩ := validTokens_eq_error_iff.mp hinvalid
  exact ⟨bad, List.mem_of_find?_eq_some hfirst, hline⟩

/-- The tokens of a source stand on its lines. -/
theorem validTokens_hasLine {tokens : List Lexed}
    (hvalid : validTokens (tokenize source.text) = .ok tokens) {line : Nat}
    (hline : OnLine tokens line) : source.HasLine line := by
  obtain ⟨lexed, hlexed, rfl⟩ := hline
  obtain ⟨item, hitem, -, hline⟩ := validTokens_mem hvalid lexed hlexed
  exact hline ▸ tokenize_line hitem

theorem parse_error_isIn (hsource : source ∈ sources) {error : ProgramError}
    (hrefused : parse source = .error error) : error.IsIn sources := by
  unfold parse at hrefused
  split at hrefused
  · rename_i chars line hinvalid
    obtain rfl := Except.error.inj hrefused
    obtain ⟨item, hitem, rfl⟩ := validTokens_error hinvalid
    exact ⟨source, hsource, rfl, tokenize_line hitem⟩
  · rename_i tokens hvalid
    split at hrefused
    · rename_i syntaxError hfile
      obtain rfl := Except.error.inj hrefused
      have hamong := file_failsAmong tokens syntaxError hfile
      cases syntaxError with
      | unexpected line expectation found =>
          exact ⟨source, hsource, rfl, validTokens_hasLine hvalid ⟨_, hamong, rfl⟩⟩
      | endOfInput expectation => exact ⟨source, hsource, rfl⟩
    · nomatch hrefused

theorem parse_hasLine {parsed : SourceFile} (hparsed : parse source = .ok parsed) :
    parsed.name = source.name ∧ ∀ declaration ∈ parsed.declarations,
      source.HasLine declaration.line ∧
        ∀ statement ∈ declaration.body, source.HasLine statement.line := by
  unfold parse at hparsed
  split at hparsed
  · nomatch hparsed
  · rename_i tokens hvalid
    split at hparsed
    · nomatch hparsed
    · rename_i scope declarations hfile
      obtain rfl := Except.ok.inj hparsed
      refine ⟨rfl, fun declaration hdeclaration => ?_⟩
      obtain ⟨hline, hbody⟩ := file_onLine hfile declaration hdeclaration
      exact ⟨validTokens_hasLine hvalid hline, fun statement hstatement =>
        validTokens_hasLine hvalid (hbody statement hstatement)⟩

theorem declaredIn_isIn {files : List SourceFile}
    (hparsed : List.Forall₂ (fun source file => parse source = .ok file) sources files) :
    ∀ declared ∈ declaredIn files, declared.IsIn sources := by
  intro declared hdeclared
  obtain ⟨file, hfile, hdeclared⟩ := List.mem_flatMap.mp hdeclared
  obtain ⟨declaration, hdeclaration, rfl⟩ := List.mem_map.mp hdeclared
  obtain ⟨source, hsource, hparsed⟩ := exists_of_forall₂_of_mem hparsed hfile
  obtain ⟨hname, hlines⟩ := parse_hasLine hparsed
  obtain ⟨hline, hbody⟩ := hlines declaration hdeclaration
  exact ⟨⟨source, hsource, hname.symm, hline⟩, fun statement hstatement =>
    ⟨source, hsource, hname.symm, hbody statement hstatement⟩⟩

/-! ### Resolution -/

theorem splitRepeated_subset (earlier : List QualifiedName) (declared : List Declared) :
    (splitRepeated earlier declared).1 ⊆ declared ∧
      (splitRepeated earlier declared).2 ⊆ declared := by
  induction declared generalizing earlier with
  | nil => simp [splitRepeated]
  | cons first others ih =>
      simp only [splitRepeated]
      split
      · obtain ⟨hkept, hrepeated⟩ := ih earlier
        exact ⟨List.subset_cons_of_subset _ hkept, List.cons_subset_cons _ hrepeated⟩
      · obtain ⟨hkept, hrepeated⟩ := ih (first.name :: earlier)
        exact ⟨List.cons_subset_cons _ hkept, List.subset_cons_of_subset _ hrepeated⟩

theorem resolveBody_error_isIn {names : List QualifiedName} {declared : Declared}
    (hdeclared : declared.IsIn sources) {errors : List ProgramError}
    (hrefused : resolveBody names declared = .error errors) :
    ∀ error ∈ errors, error.IsIn sources := by
  unfold resolveBody at hrefused
  dsimp only at hrefused
  split at hrefused
  · nomatch hrefused
  · rename_i found steps hsome hsplit
    obtain rfl := Except.error.inj hrefused
    intro error herror
    have hresult := splitResults_fst_mem.mp (by rwa [hsplit])
    obtain ⟨statement, hstatement, hresult⟩ := List.mem_map.mp hresult
    split at hresult
    · nomatch hresult
    · obtain rfl := Except.error.inj hresult
      exact hdeclared.2 statement hstatement

theorem resolve_error_isIn {files : List SourceFile}
    (hdeclared : ∀ declared ∈ declaredIn files, declared.IsIn sources)
    {errors : List ProgramError} (hrefused : resolve files = .error errors) :
    ∀ error ∈ errors, error.IsIn sources := by
  obtain ⟨hkept, hrepeated⟩ := splitRepeated_subset [] (declaredIn files)
  unfold resolve at hrefused
  dsimp only at hrefused
  split at hrefused
  · nomatch hrefused
  · obtain rfl := Except.error.inj hrefused
    intro error herror
    rcases List.mem_append.mp herror with herror | herror
    · obtain ⟨declared, hmem, rfl⟩ := List.mem_map.mp herror
      exact (hdeclared declared (hrepeated hmem)).1
    · obtain ⟨found, hfound, herror⟩ := List.mem_flatten.mp herror
      obtain ⟨declared, hmem, hresult⟩ := List.mem_map.mp (splitResults_fst_mem.mp hfound)
      exact resolveBody_error_isIn (hdeclared declared (hkept hmem)) hresult error herror

theorem Resolves.isIn {names : List QualifiedName} {declared : Declared} {routine : Routine}
    (hresolves : Resolves names declared routine) (hdeclared : declared.IsIn sources) :
    routine.IsIn sources := by
  refine ⟨hresolves.location ▸ hdeclared.1, fun step hstep => ?_⟩
  obtain ⟨statement, hstatement, -, hline⟩ := exists_of_forall₂_of_mem hresolves.body hstep
  rw [hresolves.location, hline]
  exact hdeclared.2 statement hstatement

/-! ### Cycles and sizes -/

/-- A cycle is reported where its closing call stands. -/
theorem cycleError_isIn {routines : Array Routine}
    (hroutines : ∀ routine ∈ routines, routine.IsIn sources) {cycle : CallCycle}
    (hcloses : cycle.Closes (callsIn routines)) : (cycleError routines cycle).IsIn sources := by
  obtain ⟨-, first, last, -, hlast, hcall⟩ := hcloses
  unfold callsIn at hcall
  cases hroutine : routines[last]? with
  | none => simp [hroutine] at hcall
  | some routine =>
      rw [hroutine] at hcall
      obtain ⟨step, hstep, hsite⟩ := List.mem_filterMap.mp hcall
      obtain ⟨callee, -, hsite⟩ := Option.map_eq_some_iff.mp hsite
      obtain ⟨inner, hpath⟩ := List.getLast?_eq_some_iff.mp hlast
      have hclosing : (cycle.path.filterMap (routines[·]?)).getLast? = some routine := by
        simp [hpath, List.filterMap_append, hroutine]
      have hline : step.line = cycle.line := congrArg CallSite.line hsite
      simpa [cycleError, hclosing, ProgramError.IsIn, hline] using
        (hroutines routine (Array.mem_of_getElem? hroutine)).2 step hstep

theorem sizeErrors_isIn {operation : Operation} (hoperation : operation.location.IsIn sources) :
    ∀ error ∈ sizeErrors limits program operation, error.IsIn sources := by
  intro error herror
  obtain ⟨cause, -, rfl⟩ := List.mem_map.mp herror
  exact hoperation

theorem qubitErrors_isIn {operation : Operation} (hoperation : operation.location.IsIn sources) :
    ∀ error ∈ qubitErrors limits operation, error.IsIn sources := by
  unfold qubitErrors
  dsimp only
  split
  · exact List.forall_mem_singleton.mpr hoperation
  · nofun

theorem ofRoutines_isIn {routines : Array Routine}
    (hroutines : ∀ routine ∈ routines, routine.IsIn sources) :
    ∀ operation ∈ (ofRoutines routines).operations, operation.toRoutine.IsIn sources := by
  intro operation hoperation
  obtain ⟨number, hnumber⟩ := Array.mem_iff_getElem?.mp hoperation
  rw [ofRoutines_operations_getElem?] at hnumber
  obtain ⟨routine, hroutine, rfl⟩ := Option.map_eq_some_iff.mp hnumber
  exact hroutines routine (Array.mem_of_getElem? hroutine)

/-! ### Compilation -/

theorem resolved_isIn {files : List SourceFile}
    (hdeclared : ∀ declared ∈ declaredIn files, declared.IsIn sources) {resolved : List Routine}
    (hresolved : resolve files = .ok resolved) :
    ∀ routine ∈ resolved.toArray, routine.IsIn sources := by
  intro routine hroutine
  obtain ⟨declared, hmem, hresolves⟩ :=
    exists_of_forall₂_of_mem (resolve_ok_iff.mp hresolved).2 (List.mem_toArray.mp hroutine)
  exact hresolves.isIn (hdeclared declared hmem)

theorem compileFiles_error_isIn {files : List SourceFile}
    (hdeclared : ∀ declared ∈ declaredIn files, declared.IsIn sources)
    {errors : List ProgramError} (hrefused : compileFiles files limits = .error errors) :
    ∀ error ∈ errors, error.IsIn sources := by
  simp only [compileFiles, bind_eq_error_iff] at hrefused
  obtain hrefused | ⟨resolved, hresolved, hrefused⟩ := hrefused
  · exact resolve_error_isIn hdeclared hrefused
  · have hroutines := resolved_isIn hdeclared hresolved
    split at hrefused
    · obtain rfl := Except.error.inj hrefused
      intro error herror
      obtain ⟨cycle, hcycle, rfl⟩ := List.mem_map.mp herror
      exact cycleError_isIn hroutines (callOrder_cycles_close _ _ cycle hcycle)
    · split at hrefused
      · cases hrefused
      · obtain rfl := Except.error.inj hrefused
        have hoperations := ofRoutines_isIn hroutines
        intro error herror
        rcases List.mem_append.mp herror with herror | herror
        all_goals
          obtain ⟨operation, hoperation, herror⟩ := List.mem_flatMap.mp herror
          have hlocation := (hoperations operation (Array.mem_toList_iff.mp hoperation)).1
        · exact sizeErrors_isIn hlocation error herror
        · exact qubitErrors_isIn hlocation error herror

/-- The operations of a compiled program stand on lines of its sources. -/
theorem compile_isIn (haccepted : compile sources limits = .ok program) :
    ∀ operation ∈ program.operations, operation.toRoutine.IsIn sources := by
  obtain ⟨files, hparsed, hcompiled⟩ := compile_ok_iff_compileFiles.mp haccepted
  obtain ⟨resolved, hresolved, -, rfl, -⟩ := compileFiles_ok_iff.mp hcompiled
  exact ofRoutines_isIn (resolved_isIn (declaredIn_isIn hparsed) hresolved)

theorem compile_error_isIn {errors : List ProgramError}
    (hrefused : compile sources limits = .error errors) : ∀ error ∈ errors, error.IsIn sources := by
  unfold compile at hrefused
  split at hrefused
  · rename_i files hparsed
    have hparsed := (splitResults_map_eq_iff (fun _ _ => Iff.rfl) sources files).mp hparsed
    exact compileFiles_error_isIn (declaredIn_isIn hparsed) hrefused
  · rename_i found files hsome hsplit
    obtain rfl := Except.error.inj hrefused
    intro error herror
    have hresult := splitResults_fst_mem.mp (by rwa [hsplit])
    obtain ⟨source, hsource, hresult⟩ := List.mem_map.mp hresult
    exact parse_error_isIn hsource hresult

/-! ### Profiles -/

/-- What a profile refuses stands on lines of the sources, however deep the calls to it nest. -/
theorem violations_isIn (haccepted : compile sources limits = .ok program) (number : Nat)
    (profile : Message.Profile) :
    ∀ error ∈ program.violations number profile, error.IsIn sources := by
  intro error herror
  cases profile with
  | unrestricted => nomatch herror
  | base =>
      obtain hnone | ⟨step, hstep, violation, rfl⟩ := mem_collectViolations herror
      · nomatch hnone
      · obtain ⟨operation, hoperation, line, hbody, hlocation⟩ := mem_inlineTo hstep
        have hline := (compile_isIn haccepted operation hoperation).2 _ hbody
        rw [hlocation]
        exact hline

/-- Whatever is reported of sources, and of an operation that they compile to, is reported on a line
of theirs; and where the input ends too early, it is that of one of them. -/
theorem reported_isIn (sources : List Source) (limits : Limits) :
    (∀ errors, compile sources limits = .error errors → ∀ error ∈ errors, error.IsIn sources) ∧
      ∀ program, compile sources limits = .ok program →
        ∀ number profile, ∀ error ∈ program.violations number profile, error.IsIn sources :=
  ⟨fun _ hrefused => compile_error_isIn hrefused, fun _ haccepted number profile =>
    violations_isIn haccepted number profile⟩

/-- Two operations, each in a source of its own, that call each other. -/
def mutualCall : List Source :=
  [⟨"outer.qb", "operation A\n{ call B; }"⟩, ⟨"inner.qb", "operation B\n{ call A; }"⟩]

/-- The cycle is reported where the second one closes it. -/
def mutualCallError : ProgramError :=
  .located ⟨"inner.qb", 2⟩ (.callCycle [⟨none, "A"⟩, ⟨none, "B"⟩, ⟨none, "A"⟩])

theorem compile_mutualCall : compile mutualCall {} = .error [mutualCallError] := by
  have houter : parse ⟨"outer.qb", "operation A\n{ call B; }"⟩ =
      .ok ⟨"outer.qb", none, [⟨"A", false, 1, [⟨.call ⟨none, "B"⟩, 2⟩]⟩]⟩ := by
    decide +kernel
  have hinner : parse ⟨"inner.qb", "operation B\n{ call A; }"⟩ =
      .ok ⟨"inner.qb", none, [⟨"B", false, 1, [⟨.call ⟨none, "A"⟩, 2⟩]⟩]⟩ := by
    decide +kernel
  simp only [compile, mutualCall, List.map_cons, List.map_nil, houter, hinner]
  cbv

theorem reported_isIn_examples :
    compile mutualCall {} = .error [mutualCallError] ∧ mutualCallError.IsIn mutualCall ∧
      compile callAcross {} = .ok callAcrossProgram ∧
      callAcrossProgram.violations 0 .base =
        [.located ⟨"inner.qb", 1⟩ (.profileViolation (.reset 1))] ∧
      ProgramError.IsIn callAcross (.located ⟨"inner.qb", 1⟩ (.profileViolation (.reset 1))) := by
  have hviolations : callAcrossProgram.violations 0 .base =
      [.located ⟨"inner.qb", 1⟩ (.profileViolation (.reset 1))] := by
    decide
  exact ⟨compile_mutualCall,
    (reported_isIn mutualCall {}).1 _ compile_mutualCall _ (List.mem_singleton_self _),
    compile_callAcross, hviolations,
    (reported_isIn callAcross {}).2 _ compile_callAcross 0 .base _
      (hviolations ▸ List.mem_singleton_self _)⟩

end Program

end GateBench
