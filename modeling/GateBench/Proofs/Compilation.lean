import GateBench.Proofs.Figures
import GateBench.Proofs.Resolution
import Mathlib.Order.Bounds.Defs

/-!
What compilation accepts, and what the figures of a compiled program tell.  Sizes are compared with
limits only where all callees keep them, and saturate; an operation beyond a limit is found all the
same, since on some chain of calls there is a last one.
-/

namespace GateBench.Program

open GateBench.Syntax

/-- What files must be for compilation to accept them: their operations have different names and
resolve, no chain of calls leads back to its start, and every operation keeps every limit, whether
or not an entry reaches it. -/
structure WellFormed (limits : Limits) (files : List SourceFile) (routines : Array Routine) :
    Prop where
  distinct : ((declaredIn files).map (·.name)).Nodup
  resolved : List.Forall₂ (Resolves ((declaredIn files).map (·.name))) (declaredIn files)
    routines.toList
  acyclic : ∀ number, ¬ Relation.TransGen (Calls routines) number number
  steps : ∀ number < routines.size, ∃ size ≤ limits.maxSteps, HasSize routines number size
  callDepth : ∀ number, ∀ depth ∈ chainsBelow routines number, depth ≤ limits.maxCallDepth
  qubits : ∀ number reached routine, Relation.ReflTransGen (Calls routines) number reached →
    routines[reached]? = some routine →
    ∀ step ∈ routine.body, ∀ qubit ∈ step.action.qubits, qubit < limits.maxQubits

/-- The program of resolved operations, with their figures. -/
def ofRoutines (routines : Array Routine) : Program :=
  let figures := measureAll routines (callOrder routines.size (callsIn routines)).order
  ⟨routines.mapIdx fun number routine => ⟨routine, figuresAt figures number⟩⟩

/-- What compilation knows of a program before it compares sizes with limits: operations can be
listed behind their callees, and their figures are right. -/
structure Measured (program : Program) : Prop where
  listed : ∃ order : List Nat, Listed (callsIn program.routines) [] order ∧
    order.Perm (List.range program.operations.size)
  figures : ∀ (number : Nat) (operation : Operation),
    program.operations[number]? = some operation →
    operation.figures.AreOf program.routines number

variable {limits : Limits} {program : Program} {number : Nat} {operation : Operation}
  {routines : Array Routine} {files : List SourceFile} {sources : List Source}

/-! ### The program of resolved operations -/

theorem ofRoutines_operations_getElem? (routines : Array Routine) (number : Nat) :
    (ofRoutines routines).operations[number]? = routines[number]?.map fun routine =>
      ⟨routine, figuresAt
        (measureAll routines (callOrder routines.size (callsIn routines)).order) number⟩ := by
  simp [ofRoutines]

theorem ofRoutines_routines (routines : Array Routine) :
    (ofRoutines routines).routines = routines := by
  apply Array.ext_getElem?
  intro number
  rw [routines_getElem?, ofRoutines_operations_getElem?]
  cases routines[number]? <;> rfl

theorem ofRoutines_size (routines : Array Routine) :
    (ofRoutines routines).operations.size = routines.size := by
  simp [ofRoutines]

theorem callee_lt_of_mem_callsIn
    (hclosed : ∀ routine ∈ routines, ∀ callee ∈ routine.callees, callee < routines.size) :
    ∀ number < routines.size, ∀ site ∈ callsIn routines number, site.callee < routines.size := by
  intro number _ site hsite
  obtain ⟨routine, hroutine, hcallee⟩ := callsTo_callsIn_iff.mp ⟨site, hsite, rfl⟩
  exact hclosed routine (Array.mem_of_getElem? hroutine) _ hcallee

theorem callOrder_callsIn_cycles_eq_nil_iff
    (hclosed : ∀ routine ∈ routines, ∀ callee ∈ routine.callees, callee < routines.size) :
    (callOrder routines.size (callsIn routines)).cycles = [] ↔
      ∀ number, ¬ Relation.TransGen (Calls routines) number number := by
  rw [← callsTo_callsIn]
  exact callOrder_cycles_eq_nil_iff (callee_lt_of_mem_callsIn hclosed) fun _ => callsIn_eq_nil

theorem Measured.ofRoutines
    (hclosed : ∀ routine ∈ routines, ∀ callee ∈ routine.callees, callee < routines.size)
    (hnone : (callOrder routines.size (callsIn routines)).cycles = []) :
    Measured (ofRoutines routines) := by
  have hlisted : Listed (callsIn routines) [] _ :=
    hnone ▸ callOrder_listed (callee_lt_of_mem_callsIn hclosed)
  have hperm := callOrder_perm (callsIn routines) routines.size
  have hmem : ∀ n, n ∈ (callOrder routines.size (callsIn routines)).order.reverse ↔
      n < routines.size := by simp [hperm.mem_iff]
  refine ⟨⟨_, by rwa [ofRoutines_routines], ?_⟩, fun number operation hoperation => ?_⟩
  · rw [ofRoutines_size]
    exact (List.reverse_perm _).trans hperm
  · rw [ofRoutines_operations_getElem?] at hoperation
    obtain ⟨routine, hroutine, rfl⟩ := Option.map_eq_some_iff.mp hoperation
    have hfigures := measureAll_areOf hlisted
      (((List.reverse_perm _).trans hperm).nodup_iff.mpr List.nodup_range)
      (fun n => (hmem n).mp) number ((hmem number).mpr (Array.getElem?_eq_some_iff.mp hroutine).1)
    rw [List.reverse_reverse] at hfigures
    rwa [ofRoutines_routines]

namespace Measured

/-- What calls followed one level deeper make of an operation, from what they make of those that it
calls, they make of every operation when they are followed as deep as the program is long. -/
theorem depth_induction (hmeasured : Measured program) {motive : Nat → Nat → Prop}
    (hstep : ∀ depth, ∀ number < program.operations.size,
      (∀ callee, Calls program.routines number callee → motive depth callee) →
      motive (depth + 1) number) :
    ∀ number < program.operations.size, motive program.operations.size number := by
  obtain ⟨order, hlisted, hperm⟩ := hmeasured.listed
  have hmem : ∀ n, n ∈ order ↔ n < program.operations.size := by simp [hperm.mem_iff]
  intro number hnumber
  refine hlisted.depth_induction (motive := motive) (fun depth n hn hbelow => ?_)
    (by simp [hperm.length_eq]) number ((hmem number).mpr hnumber)
  exact hstep depth n ((hmem n).mp hn) fun callee hcalls =>
    hbelow callee (callsTo_callsIn_iff.mpr hcalls)

theorem induction (hmeasured : Measured program) {motive : Nat → Prop}
    (hstep : ∀ number, (∀ callee, Calls program.routines number callee → motive callee) →
      motive number) :
    ∀ number < program.operations.size, motive number :=
  hmeasured.depth_induction (motive := fun _ => motive) fun _ number _ => hstep number

/-- What a compiled program calls is an operation of it. -/
theorem callee_lt (hmeasured : Measured program) {callee : Nat}
    (hcalls : Calls program.routines number callee) : callee < program.operations.size := by
  obtain ⟨order, hlisted, hperm⟩ := hmeasured.listed
  have hmem : ∀ n, n ∈ order ↔ n < program.operations.size := by simp [hperm.mem_iff]
  have ⟨routine, hroutine, _⟩ := hcalls
  have hnumber : number < program.operations.size := by
    simpa [Program.routines] using (Array.getElem?_eq_some_iff.mp hroutine).1
  exact (hmem callee).mp
    (hlisted.callee_mem ((hmem number).mpr hnumber) (callsTo_callsIn_iff.mpr hcalls))

theorem chainsBelow_lt (hmeasured : Measured program)
    (hnumber : number < program.operations.size) :
    ∀ depth ∈ chainsBelow program.routines number, depth < program.operations.size := by
  obtain ⟨order, hlisted, hperm⟩ := hmeasured.listed
  rintro depth ⟨chain, hchain, rfl⟩
  have hmem : number ∈ order := by simpa [hperm.mem_iff] using hnumber
  rw [← callsTo_callsIn] at hchain
  simpa [hperm.length_eq] using hlisted.chain_length_lt hmem hchain

theorem flatten_inlinesTo (hmeasured : Measured program)
    (hnumber : number < program.operations.size) :
    ∃ calls, InlinesTo program.routines number (program.flatten number) calls := by
  obtain ⟨order, hlisted, hperm⟩ := hmeasured.listed
  have hmem : ∀ n, n ∈ order ↔ n < program.operations.size := by simp [hperm.mem_iff]
  exact inlineTo_inlinesTo program hlisted (fun n => (hmem n).mp)
    (by simp [hperm.length_eq]) number ((hmem number).mpr hnumber)

theorem flatten_inlines (hmeasured : Measured program)
    (hoperation : program.operations[number]? = some operation) :
    ∃ calls, Inlines program.routines operation.location.source operation.body
      (program.flatten number) calls := by
  obtain ⟨calls, routine, hroutine, hinlines⟩ :=
    hmeasured.flatten_inlinesTo (Array.getElem?_eq_some_iff.mp hoperation).1
  obtain rfl := Option.some.inj ((routine_of_operation hoperation).symm.trans hroutine)
  exact ⟨calls, hinlines⟩

/-- The figures of an operation tell what inlining makes of it. -/
theorem flatten_tell (hmeasured : Measured program)
    (hoperation : program.operations[number]? = some operation) :
    ∃ calls depth, InlinesTo program.routines number (program.flatten number) calls ∧
      IsGreatest (chainsBelow program.routines number) depth ∧
      operation.figures.Tell (program.flatten number) calls depth := by
  obtain ⟨calls, hflatten⟩ :=
    hmeasured.flatten_inlinesTo (Array.getElem?_eq_some_iff.mp hoperation).1
  obtain ⟨steps, calls', depth, hinlines, hdepth, htell⟩ :=
    hmeasured.figures number operation hoperation
  obtain ⟨rfl, rfl⟩ := hinlines.unique hflatten
  exact ⟨calls', depth, hflatten, hdepth, htell⟩

/-- No smaller number of qubits holds all that an operation acts on when it is inlined. -/
theorem qubits_isLeast (hmeasured : Measured program)
    (hoperation : program.operations[number]? = some operation) :
    IsLeast { count | ∀ step ∈ program.flatten number, ∀ qubit ∈ step.instruction.qubits,
      qubit < count } operation.figures.qubits := by
  obtain ⟨calls, depth, -, -, htell⟩ := hmeasured.flatten_tell hoperation
  have hqubits := Figures.qubits_isLeast htell.ascending
  simp only [htell.touched, forall_exists_index, and_imp] at hqubits
  convert hqubits using 4
  exact ⟨fun hall qubit step hstep hqubit => hall step hstep qubit hqubit,
    fun hall step hstep qubit hqubit => hall qubit step hstep hqubit⟩

end Measured

/-! ### Limits -/

theorem foldl_max_le_iff {numbers : List Nat} {start limit : Nat} :
    numbers.foldl max start ≤ limit ↔ start ≤ limit ∧ ∀ n ∈ numbers, n ≤ limit := by
  induction numbers generalizing start with
  | nil => simp
  | cons first others ih =>
      rw [List.foldl_cons, ih, List.forall_mem_cons, Nat.max_le, and_assoc]

theorem directQubits_le_iff {routine : Routine} {limit : Nat} :
    routine.directQubits ≤ limit ↔
      ∀ step ∈ routine.body, ∀ qubit ∈ step.action.qubits, qubit < limit := by
  simp only [Routine.directQubits, foldl_max_le_iff, Nat.zero_le, true_and, List.forall_mem_map,
    List.mem_flatMap, Nat.succ_le_iff]
  exact ⟨fun hall step hstep qubit hqubit => hall qubit ⟨step, hstep, hqubit⟩,
    fun hall qubit ⟨step, hstep, hqubit⟩ => hall step hstep qubit hqubit⟩

theorem qubitErrors_eq_nil_iff :
    qubitErrors limits operation = [] ↔
      ∀ step ∈ operation.body, ∀ qubit ∈ step.action.qubits, qubit < limits.maxQubits := by
  rw [← directQubits_le_iff]
  simp [qubitErrors]

theorem sizeErrors_eq_nil_iff (hoperation : program.operations[number]? = some operation) :
    sizeErrors limits program operation = [] ↔
      ((∀ callee below, Calls program.routines number callee →
          program.operations[callee]? = some below → below.figures.steps ≤ limits.maxSteps) →
        operation.figures.steps ≤ limits.maxSteps) ∧
      ((∀ callee below, Calls program.routines number callee →
          program.operations[callee]? = some below →
          below.figures.callDepth ≤ limits.maxCallDepth) →
        operation.figures.callDepth ≤ limits.maxCallDepth) := by
  have hroutine := routine_of_operation hoperation
  have hbelow : ∀ keeps : Operation → Bool,
      (operation.callees.filterMap (program.operations[·]?)).all keeps ↔
        ∀ callee below, Calls program.routines number callee →
          program.operations[callee]? = some below → keeps below := by
    intro keeps
    simp only [List.all_eq_true, List.mem_filterMap, calls_iff_mem hroutine]
    exact ⟨fun hall callee below hcallee hbelow => hall below ⟨callee, hcallee, hbelow⟩,
      fun hall below ⟨callee, hcallee, hbelow⟩ => hall callee below hcallee hbelow⟩
  have herror : ∀ (size limit : Nat) (keeps : Operation → Bool) (cause : LocatedCause),
      (if limit < size && (operation.callees.filterMap (program.operations[·]?)).all keeps then
        [cause] else []) = [] ↔
      ((∀ callee below, Calls program.routines number callee →
        program.operations[callee]? = some below → keeps below) → size ≤ limit) := by
    intro size limit keeps cause
    rw [ite_eq_right_iff, Bool.and_eq_true, decide_eq_true_eq, hbelow]
    simp only [List.cons_ne_nil, imp_false, not_and', Nat.not_lt]
  simp only [sizeErrors, List.map_eq_nil_iff, List.append_eq_nil_iff, herror, decide_eq_true_eq]

/-- No operation has a size beyond a limit exactly when none is reported.  Were there one, its
callees would lead to one whose callees all keep the limit. -/
theorem Measured.sizeErrors_eq_nil_iff (hmeasured : Measured program) :
    (∀ operation ∈ program.operations, sizeErrors limits program operation = []) ↔
      ∀ operation ∈ program.operations, operation.figures.steps ≤ limits.maxSteps ∧
        operation.figures.callDepth ≤ limits.maxCallDepth := by
  constructor
  · intro hnone
    have hkeeps := hmeasured.induction
      (motive := fun number => ∀ operation, program.operations[number]? = some operation →
        operation.figures.steps ≤ limits.maxSteps ∧
          operation.figures.callDepth ≤ limits.maxCallDepth)
      fun number hcallees operation hoperation => by
        obtain ⟨hsteps, hdepth⟩ := (Program.sizeErrors_eq_nil_iff hoperation).mp
          (hnone operation (Array.mem_of_getElem? hoperation))
        exact ⟨hsteps fun callee below hcalls hbelow => (hcallees callee hcalls below hbelow).1,
          hdepth fun callee below hcalls hbelow => (hcallees callee hcalls below hbelow).2⟩
    intro operation hoperation
    obtain ⟨number, hbound, rfl⟩ := Array.mem_iff_getElem.mp hoperation
    exact hkeeps number hbound _ (Array.getElem?_eq_getElem hbound)
  · intro hkeeps operation hoperation
    obtain ⟨number, hbound, rfl⟩ := Array.mem_iff_getElem.mp hoperation
    exact (Program.sizeErrors_eq_nil_iff (Array.getElem?_eq_getElem hbound)).mpr
      ⟨fun _ => (hkeeps _ hoperation).1, fun _ => (hkeeps _ hoperation).2⟩

theorem Figures.AreOf.steps_le_iff {figures : Figures} (hfigures : figures.AreOf routines number)
    {limit : Nat} (hlimit : limit < maxCount) :
    figures.steps ≤ limit ↔ ∃ size ≤ limit, HasSize routines number size := by
  obtain ⟨steps, calls, depth, hinlines, -, htell⟩ := hfigures
  have hsize : HasSize routines number (steps.length + calls) := ⟨steps, calls, hinlines, rfl⟩
  rw [htell.steps]
  constructor
  · exact fun hle => ⟨_, by omega, hsize⟩
  · rintro ⟨size, hle, hother⟩
    rw [hsize.unique hother]
    omega

/-- A call depth cannot saturate before the size does. -/
theorem Figures.AreOf.callDepth_le_iff {figures : Figures}
    (hfigures : figures.AreOf routines number) (hsteps : figures.steps < maxCount) {limit : Nat} :
    figures.callDepth ≤ limit ↔ ∀ depth ∈ chainsBelow routines number, depth ≤ limit := by
  obtain ⟨steps, calls, depth, ⟨routine, hroutine, hinlines⟩, hdepth, htell⟩ := hfigures
  have hle : depth ≤ calls := by
    rw [chainsBelow_eq hroutine] at hdepth
    exact hinlines.chain_length_le depth hdepth.1
  rw [htell.steps] at hsteps
  rw [htell.callDepth, Nat.min_eq_right (by omega)]
  exact ⟨fun hlimit other hother => Nat.le_trans (hdepth.2 hother) hlimit,
    fun hall => hall depth hdepth.1⟩

theorem Measured.keepsSizes_iff (hmeasured : Measured program)
    (hlimit : limits.maxSteps < maxCount) :
    (∀ operation ∈ program.operations, operation.figures.steps ≤ limits.maxSteps ∧
        operation.figures.callDepth ≤ limits.maxCallDepth) ↔
      (∀ number < program.routines.size,
        ∃ size ≤ limits.maxSteps, HasSize program.routines number size) ∧
      ∀ number, ∀ depth ∈ chainsBelow program.routines number, depth ≤ limits.maxCallDepth := by
  have hsize : program.routines.size = program.operations.size := by simp [Program.routines]
  have hfigures : ∀ number (hnumber : number < program.operations.size),
      program.operations[number].figures.AreOf program.routines number := fun number hnumber =>
    hmeasured.figures number _ (Array.getElem?_eq_getElem hnumber)
  rw [hsize]
  constructor
  · intro hkeeps
    have hkept := fun number (hnumber : number < program.operations.size) =>
      hkeeps _ (Array.getElem_mem hnumber)
    refine ⟨fun number hnumber => ((hfigures number hnumber).steps_le_iff hlimit).mp
      (hkept number hnumber).1, ?_⟩
    intro number depth hdepth
    by_cases hnumber : number < program.operations.size
    · have hsteps := Nat.lt_of_le_of_lt (hkept number hnumber).1 hlimit
      exact ((hfigures number hnumber).callDepth_le_iff hsteps).mp (hkept number hnumber).2
        depth hdepth
    · obtain ⟨chain, hchain, rfl⟩ := hdepth
      cases chain with
      | nil => exact Nat.zero_le _
      | cons callee others =>
          obtain ⟨routine, hroutine, _⟩ := (List.isChain_cons_cons.mp hchain).1
          exact absurd (hsize ▸ (Array.getElem?_eq_some_iff.mp hroutine).1) hnumber
  · rintro ⟨hsteps, hdepths⟩ operation hoperation
    obtain ⟨number, hnumber, rfl⟩ := Array.mem_iff_getElem.mp hoperation
    have hle := ((hfigures number hnumber).steps_le_iff hlimit).mpr (hsteps number hnumber)
    exact ⟨hle, ((hfigures number hnumber).callDepth_le_iff (Nat.lt_of_le_of_lt hle hlimit)).mpr
      (hdepths number)⟩

/-! ### Acceptance -/

theorem compileFiles_ok_iff :
    compileFiles files limits = .ok program ↔
      ∃ resolved, resolve files = .ok resolved ∧
        (callOrder resolved.toArray.size (callsIn resolved.toArray)).cycles = [] ∧
        ofRoutines resolved.toArray = program ∧
        (∀ operation ∈ program.operations, sizeErrors limits program operation = []) ∧
        ∀ operation ∈ program.operations, qubitErrors limits operation = [] := by
  simp only [compileFiles, bind_eq_ok_iff]
  refine exists_congr fun resolved => and_congr_right fun _ => ?_
  split
  · rename_i hcycles
    simp only [hcycles, false_and, iff_false]
    nofun
  · rename_i hcycles
    rw [not_not] at hcycles
    simp only [hcycles, true_and]
    split
    · rename_i hnone
      simp only [List.append_eq_nil_iff, List.flatMap_eq_nil_iff, Array.mem_toList_iff] at hnone
      constructor
      · rintro ⟨⟩
        exact ⟨rfl, hnone⟩
      · rintro ⟨rfl, -⟩
        rfl
    · rename_i hsome
      constructor
      · nofun
      · rintro ⟨rfl, hnone⟩
        refine absurd ?_ hsome
        simp only [List.append_eq_nil_iff, List.flatMap_eq_nil_iff, Array.mem_toList_iff]
        exact hnone

theorem resolve_of_compileFiles (hcompiled : compileFiles files limits = .ok program) :
    resolve files = .ok program.routines.toList := by
  obtain ⟨resolved, hresolve, -, rfl, -⟩ := compileFiles_ok_iff.mp hcompiled
  rw [ofRoutines_routines, hresolve]

theorem compile_ok_iff_compileFiles :
    compile sources limits = .ok program ↔
      ∃ files, List.Forall₂ (fun source file => parse source = .ok file) sources files ∧
        compileFiles files limits = .ok program := by
  have hparsed := splitResults_map_eq_iff (f := parse) (fun _ _ => Iff.rfl) sources
  simp only [← hparsed, compile]
  rcases splitResults (sources.map parse) with ⟨errors, files⟩
  cases errors <;> simp

theorem resolved_callee_lt {resolved : List Routine}
    (hresolved : List.Forall₂ (Resolves ((declaredIn files).map (·.name))) (declaredIn files)
      resolved) :
    ∀ routine ∈ resolved.toArray, ∀ callee ∈ routine.callees, callee < resolved.toArray.size := by
  intro routine hroutine
  obtain ⟨declared, -, hresolves⟩ :=
    exists_of_forall₂_of_mem hresolved (List.mem_toArray.mp hroutine)
  have hcallees := hresolves.callee_lt_length
  simpa [hresolved.length_eq] using hcallees

theorem compile_measured (haccepted : compile sources limits = .ok program) :
    Measured program := by
  obtain ⟨files, -, hcompiled⟩ := compile_ok_iff_compileFiles.mp haccepted
  obtain ⟨resolved, hresolve, hnone, rfl, -⟩ := compileFiles_ok_iff.mp hcompiled
  exact .ofRoutines (resolved_callee_lt (resolve_ok_iff.mp hresolve).2) hnone

/-- No operation of a compiled program itself acts on a qubit beyond the limit. -/
theorem compile_lt_maxQubits (haccepted : compile sources limits = .ok program) :
    ∀ operation ∈ program.operations, ∀ step ∈ operation.body, ∀ qubit ∈ step.action.qubits,
      qubit < limits.maxQubits := by
  obtain ⟨files, -, hcompiled⟩ := compile_ok_iff_compileFiles.mp haccepted
  obtain ⟨resolved, -, -, -, -, hqubits⟩ := compileFiles_ok_iff.mp hcompiled
  exact fun operation hoperation => qubitErrors_eq_nil_iff.mp (hqubits operation hoperation)

/-- Compilation accepts exactly the well-formed files. -/
theorem compileFiles_accepts_iff (hlimit : limits.maxSteps < maxCount) :
    (∃ program, compileFiles files limits = .ok program) ↔
      ∃ routines, WellFormed limits files routines := by
  simp only [compileFiles_ok_iff]
  constructor
  · rintro ⟨program, resolved, hresolve, hnone, rfl, hsizes, hqubits⟩
    obtain ⟨hdistinct, hresolved⟩ := resolve_ok_iff.mp hresolve
    have hclosed := resolved_callee_lt hresolved
    have hmeasured := Measured.ofRoutines hclosed hnone
    obtain ⟨hsteps, hdepth⟩ :=
      (hmeasured.keepsSizes_iff hlimit).mp (hmeasured.sizeErrors_eq_nil_iff.mp hsizes)
    rw [ofRoutines_routines] at hsteps hdepth
    refine ⟨resolved.toArray, hdistinct, hresolved,
      (callOrder_callsIn_cycles_eq_nil_iff hclosed).mp hnone, hsteps, hdepth, ?_⟩
    intro number reached routine _ hroutine
    have hoperation := ofRoutines_operations_getElem? resolved.toArray reached
    rw [hroutine, Option.map_some] at hoperation
    exact qubitErrors_eq_nil_iff.mp (hqubits _ (Array.mem_of_getElem? hoperation))
  · rintro ⟨routines, hwell⟩
    have hclosed := resolved_callee_lt hwell.resolved
    have hnone := (callOrder_callsIn_cycles_eq_nil_iff hclosed).mpr hwell.acyclic
    have hmeasured := Measured.ofRoutines hclosed hnone
    refine ⟨_, routines.toList, resolve_ok_iff.mpr ⟨hwell.distinct, hwell.resolved⟩, hnone, rfl,
      ?_, ?_⟩
    · refine hmeasured.sizeErrors_eq_nil_iff.mpr ((hmeasured.keepsSizes_iff hlimit).mpr ?_)
      rw [ofRoutines_routines]
      exact ⟨hwell.steps, hwell.callDepth⟩
    · intro operation hoperation
      obtain ⟨number, hnumber, rfl⟩ := Array.mem_iff_getElem.mp hoperation
      have hroutine := routines_getElem? (ofRoutines routines) number
      rw [ofRoutines_routines, Array.getElem?_eq_getElem hnumber, Option.map_some] at hroutine
      exact qubitErrors_eq_nil_iff.mpr (hwell.qubits number number _ .refl hroutine)

/-! ### Refusal -/

theorem resolve_error_ne_nil {errors : List ProgramError}
    (hrefused : resolve files = .error errors) : errors ≠ [] := by
  unfold resolve at hrefused
  dsimp only at hrefused
  split at hrefused
  · nomatch hrefused
  · rename_i hsome
    obtain rfl := Except.error.inj hrefused
    exact hsome

theorem compileFiles_error_ne_nil {errors : List ProgramError}
    (hrefused : compileFiles files limits = .error errors) : errors ≠ [] := by
  simp only [compileFiles, bind_eq_error_iff] at hrefused
  obtain hrefused | ⟨resolved, -, hrefused⟩ := hrefused
  · exact resolve_error_ne_nil hrefused
  · split at hrefused
    · rename_i hcycles
      obtain rfl := Except.error.inj hrefused
      exact fun hnone => hcycles (List.map_eq_nil_iff.mp hnone)
    · split at hrefused
      · nomatch hrefused
      · rename_i hsome
        obtain rfl := Except.error.inj hrefused
        exact hsome

/-- Sources are never refused without an error. -/
theorem compile_error_ne_nil {errors : List ProgramError}
    (hrefused : compile sources limits = .error errors) : errors ≠ [] := by
  unfold compile at hrefused
  split at hrefused
  · exact compileFiles_error_ne_nil hrefused
  · rename_i hsome _
    obtain rfl := Except.error.inj hrefused
    exact hsome

/-- What compilation reports. -/
def errorsOf (result : Except (List ProgramError) Program) : List ProgramError :=
  match result with
  | .error errors => errors
  | .ok _ => []

theorem compile_of_parsed
    (hparsed : List.Forall₂ (fun source file => parse source = .ok file) sources files) :
    compile sources limits = compileFiles files limits := by
  have hsplit := (splitResults_map_eq_iff (fun _ _ => Iff.rfl) sources files).mpr hparsed
  rw [compile, hsplit]

theorem errorsOf_of_cycles {resolved : List Routine} (hresolved : resolve files = .ok resolved)
    (hcycles : (callOrder resolved.toArray.size (callsIn resolved.toArray)).cycles ≠ []) :
    errorsOf (compileFiles files limits) =
      (callOrder resolved.toArray.size (callsIn resolved.toArray)).cycles.map
        (cycleError resolved.toArray) := by
  unfold compileFiles
  rw [hresolved]
  exact congrArg errorsOf (if_pos hcycles)

/-- Without cycles, the sizes are reported that cross a limit, and the qubits beyond theirs. -/
theorem errorsOf_of_acyclic {resolved : List Routine} (hresolved : resolve files = .ok resolved)
    (hnone : (callOrder resolved.toArray.size (callsIn resolved.toArray)).cycles = []) :
    errorsOf (compileFiles files limits) =
      (ofRoutines resolved.toArray).operations.toList.flatMap
          (sizeErrors limits (ofRoutines resolved.toArray)) ++
        (ofRoutines resolved.toArray).operations.toList.flatMap (qubitErrors limits) := by
  unfold compileFiles
  rw [hresolved]
  refine (congrArg errorsOf (if_neg (not_not.mpr hnone))).trans ?_
  dsimp only
  split
  · rename_i hnil
    exact hnil.symm
  · rfl

/-- An operation that calls another. -/
def nestedCall : Source :=
  ⟨"nested.qb", "operation A { call B; } operation B { reset 1; }"⟩

/-- What it parses into. -/
def nestedCallFile : SourceFile :=
  ⟨"nested.qb", none, [
    ⟨"A", false, 1, [⟨.call ⟨none, "B"⟩, 1⟩]⟩,
    ⟨"B", false, 1, [⟨.reset 1, 1⟩]⟩]⟩

/-- What it compiles to. -/
def nestedCallProgram : Program :=
  ⟨#[
    ⟨⟨⟨none, "A"⟩, false, ⟨"nested.qb", 1⟩, [⟨.call 1, 1⟩]⟩, ⟨[1], 2, 1⟩⟩,
    ⟨⟨⟨none, "B"⟩, false, ⟨"nested.qb", 1⟩, [⟨.perform (.reset 1), 1⟩]⟩, ⟨[1], 1, 0⟩⟩]⟩

theorem parse_nestedCall : parse nestedCall = .ok nestedCallFile := by
  decide +kernel

theorem compile_nestedCall : compile [nestedCall] {} = .ok nestedCallProgram := by
  have hfile : compileFiles [nestedCallFile] {} = .ok nestedCallProgram := by
    cbv
  exact compile_ok_iff_compileFiles.mpr ⟨_, .cons parse_nestedCall .nil, hfile⟩

/-- Compilation accepts exactly the sources that parse into well-formed files. -/
theorem compile_accepts_iff (sources : List Source) (limits : Limits)
    (hlimit : limits.maxSteps < UInt64.size - 1) :
    (∃ program, compile sources limits = .ok program) ↔
      ∃ files routines, List.Forall₂ (fun source file => parse source = .ok file) sources files ∧
        WellFormed limits files routines := by
  simp only [compile_ok_iff_compileFiles]
  rw [exists_comm]
  simp only [exists_and_left, compileFiles_accepts_iff hlimit]

theorem compile_accepts_nestedCall :
    ({} : Limits).maxSteps < UInt64.size - 1 ∧
      ∃ files routines,
        List.Forall₂ (fun source file => parse source = .ok file) [nestedCall] files ∧
          WellFormed {} files routines :=
  ⟨by decide, (compile_accepts_iff [nestedCall] {} (by decide)).mp ⟨_, compile_nestedCall⟩⟩

/-- The figures of every operation of a compiled program are those of inlining it: the qubits in
its inlined instructions in ascending order, one more than the highest of them, the number of
inlined instructions and followed calls, and the longest chain of nested calls below it. -/
theorem compile_figures (haccepted : compile sources limits = .ok program)
    (hoperation : program.operations[number]? = some operation) :
    operation.figures.touched.Pairwise (· < ·) ∧
    (∀ qubit, qubit ∈ operation.figures.touched ↔
      ∃ step ∈ program.flatten number, qubit ∈ step.instruction.qubits) ∧
    IsLeast { count | ∀ step ∈ program.flatten number, ∀ qubit ∈ step.instruction.qubits,
      qubit < count } operation.figures.qubits ∧
    (∃ calls, InlinesTo program.routines number (program.flatten number) calls ∧
      operation.figures.steps =
        min (UInt64.size - 1) ((program.flatten number).length + calls)) ∧
    ∃ depth, IsGreatest (chainsBelow program.routines number) depth ∧
      operation.figures.callDepth = min (UInt64.size - 1) depth ∧
      (program.operations.size ≤ UInt64.size → operation.figures.callDepth = depth) := by
  have hmeasured := compile_measured haccepted
  obtain ⟨calls, depth, hinlines, hdepth, htell⟩ := hmeasured.flatten_tell hoperation
  refine ⟨htell.ascending, htell.touched, hmeasured.qubits_isLeast hoperation,
    ⟨calls, hinlines, htell.steps⟩, depth, hdepth, htell.callDepth, fun hsize => ?_⟩
  have hlt := hmeasured.chainsBelow_lt (Array.getElem?_eq_some_iff.mp hoperation).1 depth hdepth.1
  rw [htell.callDepth]
  exact Nat.min_eq_right (Nat.le_sub_one_of_lt (Nat.lt_of_lt_of_le hlt hsize))

theorem compile_figures_nestedCall :
    compile [nestedCall] {} = .ok nestedCallProgram ∧
      nestedCallProgram.operations[0]? = some nestedCallProgram.operations[0] ∧
      IsGreatest (chainsBelow nestedCallProgram.routines 0) 1 := by
  refine ⟨compile_nestedCall, rfl, ?_⟩
  obtain ⟨_, _, _, _, depth, hdepth, _, hexact⟩ :=
    compile_figures compile_nestedCall (show nestedCallProgram.operations[0]? = _ from rfl)
  rwa [← hexact (by decide)] at hdepth

end GateBench.Program
