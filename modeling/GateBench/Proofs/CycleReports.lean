import GateBench.Proofs.CallForest
import GateBench.Proofs.Renumbering
import GateBench.Proofs.Selection

/-!
Reports of call cycles.  The operations on a cycle determine the report: where it starts and which
operation closes it.  It is made once for each call statement that closes the cycle, so a cycle is
named once only if its last operation calls its first one in a single statement.
-/

namespace GateBench.Program

open GateBench.Syntax

/-- The names along the cycle that an error reports, the first one again at the end. -/
def ProgramError.cycle? : ProgramError → Option (List QualifiedName)
  | .located _ (.callCycle names) => some names
  | _ => none

/-- The names along a cycle of operations, the first one again at the end. -/
def namesAround (routines : Array Routine) (path : List Nat) : List QualifiedName :=
  let names := path.filterMap (nameIn routines)
  names ++ names.take 1

/-- The statements of a routine that call an operation. -/
def Routine.callsOf (routine : Routine) (callee : Nat) : List Step :=
  routine.body.filter (·.action = .call callee)

/-- The cycle with these names around it is closed where `closing` calls `callee`: the one is the
last operation on it, the other the first. -/
structure IsClosedBy (routines : Array Routine) (names : List QualifiedName) (closing : Routine)
    (callee : Nat) : Prop where
  closing_mem : closing ∈ routines
  last : names.dropLast.getLast? = some closing.name
  first : ∃ name, names.head? = some name ∧ nameIn routines callee = some name

/-- An error tells of the cycle `first :: others`: each of these operations calls the next, and the
last one calls the first in a statement at which the error is located.  It has their names, the
first one again at the end. -/
structure TellsCycle (routines : Array Routine) (error : ProgramError) (first : Nat)
    (others : List Nat) : Prop where
  chain : (first :: others ++ [first]).IsChain (Calls routines)
  told : ∃ (last : Nat) (closing : Routine) (step : Step) (names : List QualifiedName),
    (first :: others).getLast? = some last ∧ routines[last]? = some closing ∧
      step ∈ closing.body ∧ step.action = .call first ∧
      names.map some = (first :: others ++ [first]).map (nameIn routines) ∧
      error = .located ⟨closing.location.source, step.line⟩ (.callCycle names)

variable {calls : Nat → List CallSite} {cycle : CallCycle} {routines : Array Routine}
  {path path' : List Nat} {number other callee callee' : Nat} {routine closing closing' : Routine}
  {names : List QualifiedName} {name : QualifiedName} {errors : List ProgramError}
  {files : List SourceFile} {limits : Limits} {program : Program}

/-! ### Operations on a cycle -/

/-- Along a cycle, and from its last operation to its first, each operation calls the next. -/
theorem CallCycle.Closes.isChain (hcycle : cycle.Closes calls) :
    ∃ first, cycle.path.head? = some first ∧ (cycle.path ++ [first]).IsChain (CallsTo calls) := by
  obtain ⟨hchain, first, last, hfirst, hlast, hsite⟩ := hcycle
  refine ⟨first, hfirst, List.isChain_append.mpr ⟨hchain, .singleton first, ?_⟩⟩
  simp only [hlast, Option.mem_some_iff, List.head?_cons]
  rintro _ rfl _ rfl
  exact ⟨_, hsite, rfl⟩

theorem exists_of_isChain_append {α : Type} {related : α → α → Prop} {values : List α} {last : α}
    (hchain : (values ++ [last]).IsChain related) :
    ∀ value ∈ values, ∃ next, related value next := by
  induction values with
  | nil => simp
  | cons first others ih =>
      rw [List.forall_mem_cons]
      refine ⟨?_, ih hchain.tail⟩
      cases others with
      | nil => exact ⟨last, (List.isChain_cons_cons.mp hchain).1⟩
      | cons next others => exact ⟨next, (List.isChain_cons_cons.mp hchain).1⟩

theorem CallCycle.Closes.lt_size (hcycle : cycle.Closes (callsIn routines)) :
    ∀ n ∈ cycle.path, n < routines.size := by
  obtain ⟨first, -, hchain⟩ := hcycle.isChain
  rw [callsTo_callsIn] at hchain
  intro n hn
  obtain ⟨next, hcalls⟩ := exists_of_isChain_append hchain n hn
  exact hcalls.caller_lt

/-! ### Names around a cycle -/

theorem exists_nameIn (hbound : number < routines.size) :
    ∃ name, nameIn routines number = some name :=
  ⟨_, nameIn_eq_some_iff.mpr ⟨_, Array.getElem?_eq_getElem hbound, rfl⟩⟩

theorem nameIn_inj (hdistinct : (routines.toList.map (·.name)).Nodup)
    (hfirst : nameIn routines number = some name) (hsecond : nameIn routines other = some name) :
    number = other := by
  have hread : ∀ n, (routines.toList.map (·.name))[n]? = nameIn routines n := by simp [nameIn]
  exact (getElem?_eq_some_iff_of_nodup hdistinct ((hread _).trans hsecond)).mp
    ((hread _).trans hfirst)

theorem mem_namesAround :
    name ∈ namesAround routines path ↔ ∃ n ∈ path, nameIn routines n = some name := by
  simp only [namesAround, List.mem_append, ← List.mem_filterMap]
  exact ⟨fun hmem => hmem.elim id List.mem_of_mem_take, Or.inl⟩

/-- Operations under different names are told apart by the names around their cycles. -/
theorem mem_iff_of_namesAround (hdistinct : (routines.toList.map (·.name)).Nodup)
    (hpath : ∀ n ∈ path, n < routines.size) (hpath' : ∀ n ∈ path', n < routines.size)
    (hsame : ∀ name, name ∈ namesAround routines path ↔ name ∈ namesAround routines path') :
    ∀ n, n ∈ path ↔ n ∈ path' := by
  have hsubset : ∀ {path path' : List Nat}, (∀ n ∈ path, n < routines.size) →
      (∀ name ∈ namesAround routines path, name ∈ namesAround routines path') →
      ∀ n ∈ path, n ∈ path' := by
    intro path path' hpath hnames n hn
    obtain ⟨name, hname⟩ := exists_nameIn (hpath n hn)
    have hmem := hnames name (mem_namesAround.mpr ⟨n, hn, hname⟩)
    obtain ⟨n', hn', hname'⟩ := mem_namesAround.mp hmem
    rwa [nameIn_inj hdistinct hname hname']
  exact fun n => ⟨hsubset hpath (fun name => (hsame name).mp) n,
    hsubset hpath' (fun name => (hsame name).mpr) n⟩

theorem namesAround_eq (hfirst : path.head? = some number)
    (hname : nameIn routines number = some name) :
    namesAround routines path = path.filterMap (nameIn routines) ++ [name] := by
  obtain ⟨others, rfl⟩ := List.head?_eq_some_iff.mp hfirst
  simp only [namesAround, List.filterMap_cons_some hname, List.take_succ_cons, List.take_zero]

theorem namesAround_head? (hfirst : path.head? = some number)
    (hname : nameIn routines number = some name) :
    (namesAround routines path).head? = some name := by
  obtain ⟨others, rfl⟩ := List.head?_eq_some_iff.mp hfirst
  rw [namesAround_eq hfirst hname, List.filterMap_cons_some hname, List.cons_append,
    List.head?_cons]

theorem namesAround_dropLast (hfirst : path.head? = some number)
    (hname : nameIn routines number = some name) :
    (namesAround routines path).dropLast = path.filterMap (nameIn routines) := by
  rw [namesAround_eq hfirst hname, List.dropLast_concat]

theorem filterMap_getLast? {α β : Type} {values : List α} {last : α} {found : β} (f : α → Option β)
    (hlast : values.getLast? = some last) (hfound : f last = some found) :
    (values.filterMap f).getLast? = some found := by
  obtain ⟨front, rfl⟩ := List.getLast?_eq_some_iff.mp hlast
  simp [hfound]

theorem names_along (routines : Array Routine) (path : List Nat) :
    (path.filterMap (routines[·]?)).map (·.name) = path.filterMap (nameIn routines) :=
  List.map_filterMap

theorem cycleError_cycle? (routines : Array Routine) (cycle : CallCycle) :
    (cycleError routines cycle).cycle? = some (namesAround routines cycle.path) := by
  simp only [cycleError, ProgramError.cycle?, names_along, namesAround]

/-- An error for a cycle is located in the source of the last operation on it. -/
theorem cycleError_eq (hlast : cycle.path.getLast? = some number)
    (hclosing : routines[number]? = some closing) :
    cycleError routines cycle =
      .located ⟨closing.location.source, cycle.line⟩
        (.callCycle (namesAround routines cycle.path)) := by
  have hsource := filterMap_getLast? (routines[·]?) hlast hclosing
  simp only [cycleError, namesAround, hsource, names_along, Option.map_some, Option.getD_some]

theorem IsClosedBy.unique (hdistinct : (routines.toList.map (·.name)).Nodup)
    (hfirst : IsClosedBy routines names closing callee)
    (hsecond : IsClosedBy routines names closing' callee') :
    closing = closing' ∧ callee = callee' := by
  have hname : closing.name = closing'.name :=
    Option.some.inj (hfirst.last.symm.trans hsecond.last)
  obtain ⟨name, hhead, hcallee⟩ := hfirst.first
  obtain ⟨name', hhead', hcallee'⟩ := hsecond.first
  obtain rfl := Option.some.inj (hhead.symm.trans hhead')
  exact ⟨List.inj_on_of_nodup_map hdistinct hfirst.closing_mem.val hsecond.closing_mem.val hname,
    nameIn_inj hdistinct hcallee hcallee'⟩

theorem map_some_filterMap {α β : Type} {items : List α} {find? : α → Option β}
    (hfound : ∀ item ∈ items, ∃ value, find? item = some value) :
    (items.filterMap find?).map some = items.map find? := by
  induction items with
  | nil => rfl
  | cons first others ih =>
      obtain ⟨⟨value, hvalue⟩, hothers⟩ := List.forall_mem_cons.mp hfound
      rw [List.filterMap_cons_some hvalue, List.map_cons, List.map_cons, ih hothers, hvalue]

/-- The error for a reported cycle tells of it. -/
theorem CallCycle.Closes.tellsCycle (hcycle : cycle.Closes (callsIn routines)) :
    ∃ first others, cycle.path = first :: others ∧
      TellsCycle routines (cycleError routines cycle) first others := by
  have hbound := hcycle.lt_size
  obtain ⟨start, hstart, hchain⟩ := hcycle.isChain
  obtain ⟨-, first, last, hfirst, hlast, hsite⟩ := hcycle
  obtain rfl := Option.some.inj (hstart.symm.trans hfirst)
  obtain ⟨others, hpath⟩ := List.head?_eq_some_iff.mp hfirst
  obtain ⟨closing, hclosing, step, hstep, haction, hline⟩ := mem_callsIn_iff.mp hsite
  obtain ⟨name, hname⟩ := exists_nameIn (hbound start (List.mem_of_mem_head? hfirst))
  have hnames : (cycle.path.filterMap (nameIn routines)).map some =
      cycle.path.map (nameIn routines) :=
    map_some_filterMap fun n hn => exists_nameIn (hbound n hn)
  rw [callsTo_callsIn] at hchain
  refine ⟨start, others, hpath, hpath ▸ hchain, last, closing, step,
    namesAround routines cycle.path, hpath ▸ hlast, hclosing, hstep, haction, ?_,
    (cycleError_eq hlast hclosing).trans ?_⟩
  · rw [namesAround_eq hfirst hname, List.map_append, hnames, hpath, List.map_append]
    simp [hname]
  · rw [hline]

/-- Every operation on a cycle is reached from its first one and leads back to it. -/
theorem TellsCycle.reaches {error : ProgramError} {first : Nat} {others : List Nat}
    (htells : TellsCycle routines error first others) :
    ∀ n ∈ first :: others, Relation.ReflTransGen (Calls routines) first n ∧
      Relation.ReflTransGen (Calls routines) n first := by
  have hpairwise : (first :: others ++ [first]).Pairwise (Relation.ReflTransGen (Calls routines)) :=
    (htells.chain.imp fun _ _ hcalls => .single hcalls).pairwise
  obtain ⟨hbefore, -, hback⟩ := List.pairwise_append.mp hpairwise
  intro n hn
  refine ⟨?_, hback n hn first (List.mem_singleton_self first)⟩
  rcases List.mem_cons.mp hn with rfl | hn
  · exact .refl
  · exact (List.pairwise_cons.mp hbefore).1 n hn

/-! ### Reports -/

theorem callSites_filter (routine : Routine) (callee : Nat) :
    routine.callSites.filter (·.callee = callee) =
      (routine.callsOf callee).map fun step => ⟨callee, step.line⟩ := by
  unfold Routine.callSites Routine.callsOf
  induction routine.body with
  | nil => rfl
  | cons step others ih =>
      obtain ⟨action, line⟩ := step
      cases action with
      | perform instruction => simpa [StepAction.callee?] using ih
      | call called =>
          by_cases hcalled : called = callee
          · simpa [StepAction.callee?, hcalled] using ih
          · simpa [StepAction.callee?, hcalled] using ih

theorem callsIn_eq (hroutine : routines[number]? = some routine) :
    callsIn routines number = routine.callSites := by
  rw [callsIn, hroutine, Option.map_some, Option.getD_some]

/-- Cycles that are reported under the same names are the same. -/
theorem path_eq_of_namesAround (hdistinct : (routines.toList.map (·.name)).Nodup)
    {cycle' : CallCycle} (hcycle : cycle ∈ (callOrder routines.size (callsIn routines)).cycles)
    (hcycle' : cycle' ∈ (callOrder routines.size (callsIn routines)).cycles)
    (hsame : ∀ name, name ∈ namesAround routines cycle.path ↔
      name ∈ namesAround routines cycle'.path) : cycle.path = cycle'.path := by
  have hcloses := callOrder_cycles_close (callsIn routines) routines.size
  have hmem := mem_iff_of_namesAround hdistinct (hcloses cycle hcycle).lt_size
    (hcloses cycle' hcycle').lt_size hsame
  exact callOrder_path_eq (fun _ => callsIn_eq_nil) hcycle hcycle' hmem

/-- The errors that name a cycle are those for the calls that close it. -/
theorem cycleErrors_filter (hdistinct : (routines.toList.map (·.name)).Nodup)
    (hcycle : cycle ∈ (callOrder routines.size (callsIn routines)).cycles) :
    ∃ closing callee, IsClosedBy routines (namesAround routines cycle.path) closing callee ∧
      ((callOrder routines.size (callsIn routines)).cycles.map (cycleError routines)).filter
          (·.cycle? = some (namesAround routines cycle.path)) =
        (closing.callsOf callee).map fun step =>
          .located ⟨closing.location.source, step.line⟩
            (.callCycle (namesAround routines cycle.path)) := by
  have hcloses := callOrder_cycles_close (callsIn routines) routines.size
  obtain ⟨first, last, hfirst, hlast, hreports⟩ :=
    callOrder_reports (fun _ => callsIn_eq_nil) hcycle
  obtain ⟨name, hname⟩ :=
    exists_nameIn ((hcloses cycle hcycle).lt_size first (List.mem_of_mem_head? hfirst))
  have hbound := (hcloses cycle hcycle).lt_size last (List.mem_of_getLast? hlast)
  have hclosing : routines[last]? = some routines[last] := Array.getElem?_eq_getElem hbound
  refine ⟨routines[last], first, ⟨Array.getElem_mem hbound, ?_, name,
    namesAround_head? hfirst hname, hname⟩, ?_⟩
  · rw [namesAround_dropLast hfirst hname]
    exact filterMap_getLast? _ hlast (nameIn_eq_some_iff.mpr ⟨_, hclosing, rfl⟩)
  · have hnamed : ∀ other ∈ (callOrder routines.size (callsIn routines)).cycles,
        decide ((cycleError routines other).cycle? = some (namesAround routines cycle.path)) =
          decide (other.path = cycle.path) := by
      intro other hother
      rw [cycleError_cycle?, decide_eq_decide, Option.some.injEq]
      constructor
      · intro hnames
        exact path_eq_of_namesAround hdistinct hother hcycle (by simp [hnames])
      · exact fun hpath => congrArg (namesAround routines) hpath
    rw [List.filter_map]
    refine (congrArg _ (List.filter_congr hnamed)).trans ?_
    rw [hreports, callsIn_eq hclosing, callSites_filter, List.map_map, List.map_map]
    exact List.map_congr_left fun step _ => cycleError_eq hlast hclosing

theorem sizeErrors_cycle? {operation : Operation} :
    ∀ error ∈ sizeErrors limits program operation, error.cycle? = none := by
  simp only [sizeErrors, List.mem_map, List.mem_append]
  rintro _ ⟨cause, hcause, rfl⟩
  rcases hcause with hcause | hcause
  · split at hcause
    · rw [List.mem_singleton.mp hcause]
      rfl
    · nomatch hcause
  · split at hcause
    · rw [List.mem_singleton.mp hcause]
      rfl
    · nomatch hcause

theorem qubitErrors_cycle? {operation : Operation} :
    ∀ error ∈ qubitErrors limits operation, error.cycle? = none := by
  simp only [qubitErrors]
  split
  · simp [ProgramError.cycle?]
  · simp

/-- The errors of compilation that name a cycle are those for the cycles that the walk found. -/
theorem cycleErrors_eq {resolved : List Routine} (hresolved : resolve files = .ok resolved) :
    (errorsOf (compileFiles files limits)).filter (·.cycle?.isSome) =
      (callOrder resolved.toArray.size (callsIn resolved.toArray)).cycles.map
        (cycleError resolved.toArray) := by
  by_cases hnone : (callOrder resolved.toArray.size (callsIn resolved.toArray)).cycles = []
  · rw [errorsOf_of_acyclic hresolved hnone, hnone, List.map_nil, List.filter_eq_nil_iff]
    intro error herror
    rcases List.mem_append.mp herror with herror | herror
    · obtain ⟨operation, -, herror⟩ := List.mem_flatMap.mp herror
      simp [sizeErrors_cycle? error herror]
    · obtain ⟨operation, -, herror⟩ := List.mem_flatMap.mp herror
      simp [qubitErrors_cycle? error herror]
  · rw [errorsOf_of_cycles hresolved hnone]
    apply List.filter_eq_self.mpr
    simp [cycleError_cycle?]

theorem filter_cycle? (errors : List ProgramError) (names : List QualifiedName) :
    errors.filter (·.cycle? = some names) =
      (errors.filter (·.cycle?.isSome)).filter (·.cycle? = some names) := by
  rw [List.filter_filter]
  apply List.filter_congr
  intro error _
  by_cases hnames : error.cycle? = some names <;> simp [hnames]

theorem mem_cycles_iff :
    names ∈ errors.filterMap (·.cycle?) ↔
      ∃ error ∈ errors.filter (·.cycle?.isSome), error.cycle? = some names := by
  simp only [List.mem_filterMap, List.mem_filter]
  constructor
  · rintro ⟨error, herror, hnames⟩
    exact ⟨error, ⟨herror, by simp [hnames]⟩, hnames⟩
  · rintro ⟨error, ⟨herror, -⟩, hnames⟩
    exact ⟨error, herror, hnames⟩

/-- Cycles are named without repetition when each is named by one error. -/
theorem cycles_nodup_iff :
    (errors.filterMap (·.cycle?)).Nodup ↔
      ∀ names ∈ errors.filterMap (·.cycle?),
        (errors.filter (·.cycle? = some names)).length = 1 := by
  have hcount : ∀ names, (errors.filter (·.cycle? = some names)).length =
      (errors.filterMap (·.cycle?)).count names := by
    intro names
    rw [List.count_filterMap, List.countP_eq_length_filter]
    exact congrArg List.length (List.filter_congr fun error _ => (Bool.beq_eq_decide_eq _ _).symm)
  simp only [hcount]
  constructor
  · exact fun hnodup names hnames => List.count_eq_one_of_mem hnodup hnames
  · intro hone
    apply List.nodup_iff_count_le_one.mpr
    intro names
    by_cases hnames : names ∈ errors.filterMap (·.cycle?)
    · exact Nat.le_of_eq (hone names hnames)
    · rw [List.count_eq_zero_of_not_mem hnames]
      exact Nat.zero_le 1

/-- The names that an error of compilation reports are those around a cycle that was found. -/
theorem exists_cycle_of_mem {resolved : List Routine} (hresolved : resolve files = .ok resolved)
    (hnames : names ∈ (errorsOf (compileFiles files limits)).filterMap (·.cycle?)) :
    ∃ cycle ∈ (callOrder resolved.toArray.size (callsIn resolved.toArray)).cycles,
      namesAround resolved.toArray cycle.path = names := by
  obtain ⟨error, herror, hnames⟩ := mem_cycles_iff.mp hnames
  rw [cycleErrors_eq hresolved] at herror
  obtain ⟨cycle, hcycle, rfl⟩ := List.mem_map.mp herror
  exact ⟨cycle, hcycle, Option.some.inj ((cycleError_cycle? _ cycle).symm.trans hnames)⟩

/-- Compilation reports a cycle of calls from one start only, at every call of its last operation to
its first one.  So no two errors name the same cycle exactly when the last operation on each
reported cycle calls the first one in a single statement. -/
theorem compile_cycles_nodup_iff {sources : List Source} {resolved : List Routine}
    (hparsed : List.Forall₂ (fun source file => parse source = .ok file) sources files)
    (hresolved : resolve files = .ok resolved) :
    (∀ names ∈ (errorsOf (compile sources limits)).filterMap (·.cycle?),
      ∀ names' ∈ (errorsOf (compile sources limits)).filterMap (·.cycle?),
        (∀ name, name ∈ names ↔ name ∈ names') → names = names') ∧
    (∀ names ∈ (errorsOf (compile sources limits)).filterMap (·.cycle?),
      ∃ closing callee, IsClosedBy resolved.toArray names closing callee ∧
        (errorsOf (compile sources limits)).filter (·.cycle? = some names) =
          (closing.callsOf callee).map fun step =>
            .located ⟨closing.location.source, step.line⟩ (.callCycle names)) ∧
    (((errorsOf (compile sources limits)).filterMap (·.cycle?)).Nodup ↔
      ∀ names ∈ (errorsOf (compile sources limits)).filterMap (·.cycle?), ∀ closing callee,
        IsClosedBy resolved.toArray names closing callee →
          (closing.callsOf callee).length = 1) := by
  have hdistinct : (resolved.toArray.toList.map (·.name)).Nodup := by
    obtain ⟨hnodup, hresolves⟩ := resolve_ok_iff.mp hresolved
    rwa [← resolved_names hresolves]
  rw [compile_of_parsed hparsed]
  have hclosed : ∀ names ∈ (errorsOf (compileFiles files limits)).filterMap (·.cycle?),
      ∃ closing callee, IsClosedBy resolved.toArray names closing callee ∧
        (errorsOf (compileFiles files limits)).filter (·.cycle? = some names) =
          (closing.callsOf callee).map fun step =>
            .located ⟨closing.location.source, step.line⟩ (.callCycle names) := by
    intro names hnames
    obtain ⟨cycle, hcycle, rfl⟩ := exists_cycle_of_mem hresolved hnames
    rw [filter_cycle?, cycleErrors_eq hresolved]
    exact cycleErrors_filter hdistinct hcycle
  refine ⟨?_, hclosed, ?_⟩
  · intro names hnames names' hnames' hsame
    obtain ⟨cycle, hcycle, rfl⟩ := exists_cycle_of_mem hresolved hnames
    obtain ⟨cycle', hcycle', rfl⟩ := exists_cycle_of_mem hresolved hnames'
    exact congrArg _ (path_eq_of_namesAround hdistinct hcycle hcycle' hsame)
  · rw [cycles_nodup_iff]
    refine forall₂_congr fun names hnames => ?_
    obtain ⟨closing, callee, hby, hreports⟩ := hclosed names hnames
    rw [hreports, List.length_map]
    constructor
    · intro hone closing' callee' hby'
      obtain ⟨rfl, rfl⟩ := hby.unique hdistinct hby'
      exact hone
    · exact fun hone => hone closing callee hby

/-- An operation that calls itself in two statements. -/
def selfCalls : Source :=
  ⟨"main.qb", "operation A { call A; call A; }"⟩

/-- What it parses into. -/
def selfCallsFile : SourceFile :=
  ⟨"main.qb", none, [⟨"A", false, 1, [⟨.call ⟨none, "A"⟩, 1⟩, ⟨.call ⟨none, "A"⟩, 1⟩]⟩]⟩

/-- What it resolves to. -/
def selfCallsRoutine : Routine :=
  ⟨⟨none, "A"⟩, false, ⟨"main.qb", 1⟩, [⟨.call 0, 1⟩, ⟨.call 0, 1⟩]⟩

theorem parse_selfCalls : parse selfCalls = .ok selfCallsFile := by
  decide +kernel

theorem compileFiles_selfCalls :
    compileFiles [selfCallsFile] {} = .error (List.replicate 2
      (.located ⟨"main.qb", 1⟩ (.callCycle [⟨none, "A"⟩, ⟨none, "A"⟩]))) := by
  cbv

/-- The cycle of an operation that calls itself in two statements is reported twice. -/
theorem compile_cycles_selfCalls :
    List.Forall₂ (fun source file => parse source = .ok file) [selfCalls] [selfCallsFile] ∧
      resolve [selfCallsFile] = .ok [selfCallsRoutine] ∧
      ¬ ((errorsOf (compile [selfCalls] {})).filterMap (·.cycle?)).Nodup := by
  have hparsed : List.Forall₂ (fun source file => parse source = .ok file) [selfCalls]
      [selfCallsFile] := .cons parse_selfCalls .nil
  have hresolved : resolve [selfCallsFile] = .ok [selfCallsRoutine] := by
    decide
  refine ⟨hparsed, hresolved, fun hnodup => ?_⟩
  have hcycle : [⟨none, "A"⟩, ⟨none, "A"⟩] ∈
      (errorsOf (compile [selfCalls] {})).filterMap (·.cycle?) := by
    rw [compile_of_parsed hparsed, compileFiles_selfCalls]
    exact List.mem_cons_self
  have honce := (compile_cycles_nodup_iff hparsed hresolved).2.2.mp hnodup _ hcycle
    selfCallsRoutine 0 ⟨by simp, rfl, ⟨none, "A"⟩, rfl, rfl⟩
  exact absurd honce (by decide)

end GateBench.Program
