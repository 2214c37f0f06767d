import GateBench.Proofs.Selection

/-!
Reports of sizes beyond a limit.  An operation is compared with the limit only through the figures
of those that it calls, and these end at a largest number; as sizes and chains of calls only grow
from callees to callers, the reports still stand exactly where a limit is first crossed.
-/

namespace GateBench.Program

open GateBench.Syntax

/-- An operation is beyond something that no operation is beyond which it reaches through calls. -/
def FirstBeyond (routines : Array Routine) (beyond : Nat → Prop) (number : Nat) : Prop :=
  beyond number ∧
    ∀ reached, Relation.TransGen (Calls routines) number reached → ¬ beyond reached

/-- The inlined size of an operation is beyond a limit. -/
def SizeBeyond (routines : Array Routine) (limit number : Nat) : Prop :=
  ∃ size, HasSize routines number size ∧ limit < size

/-- A chain of calls below an operation is longer than a limit. -/
def DepthBeyond (routines : Array Routine) (limit number : Nat) : Prop :=
  ∃ depth ∈ chainsBelow routines number, limit < depth

/-- Whether an error is about an inlined size. -/
def ProgramError.isTooLarge : ProgramError → Bool
  | .located _ (.programTooLarge ..) => true
  | _ => false

/-- Whether an error is about a chain of calls. -/
def ProgramError.isTooDeep : ProgramError → Bool
  | .located _ (.callTooDeep ..) => true
  | _ => false

/-- The error tells the inlined size of an operation, up to the largest number. -/
def TellsSize (routines : Array Routine) (limit number : Nat) (error : ProgramError) : Prop :=
  ∃ routine size, routines[number]? = some routine ∧ HasSize routines number size ∧
    error = .located routine.location
      (.programTooLarge routine.name (min (UInt64.size - 1) size) limit)

/-- The error tells the longest chain of calls below an operation, up to the largest number. -/
def TellsDepth (routines : Array Routine) (limit number : Nat) (error : ProgramError) : Prop :=
  ∃ routine depth, routines[number]? = some routine ∧
    IsGreatest (chainsBelow routines number) depth ∧
    error = .located routine.location
      (.callTooDeep routine.name (min (UInt64.size - 1) depth) limit)

/-- The errors are one for each operation that is first beyond something, in the order of the
operations. -/
def ReportsFirst (routines : Array Routine) (beyond : Nat → Prop)
    (tells : Nat → ProgramError → Prop) (errors : List ProgramError) : Prop :=
  ∃ numbers : List Nat, numbers.Pairwise (· < ·) ∧
    (∀ number, number ∈ numbers ↔ FirstBeyond routines beyond number) ∧
    List.Forall₂ tells numbers errors

/-- A figure of an operation crosses a limit which it keeps at all operations called. -/
def crosses (program : Program) (figure : Figures → Nat) (limit : Nat) (operation : Operation) :
    Bool :=
  limit < figure operation.figures &&
    (operation.callees.filterMap (program.operations[·]?)).all (figure ·.figures ≤ limit)

variable {program : Program} {routines : Array Routine} {limits : Limits} {operation : Operation}
  {figure : Figures → Nat} {limit number callee size : Nat} {beyond : Nat → Prop}
  {files : List SourceFile} {sources : List Source}

/-! ### Sizes and depths along calls -/

theorem Inlines.lt_of_call {source : String} {body : List Step} {steps : List FlatStep}
    {followed : Nat} (hinlines : Inlines routines source body steps followed)
    (hcallee : callee ∈ calleesOf body) :
    ∃ size, HasSize routines callee size ∧ size < steps.length + followed := by
  induction hinlines with
  | done => simp at hcallee
  | perform _ ih =>
      obtain ⟨size, hsize, hless⟩ := ih hcallee
      exact ⟨size, hsize, by simp only [List.length_cons]; omega⟩
  | call hroutine hbelow _ _ ih =>
      rw [calleesOf_call, List.mem_cons] at hcallee
      simp only [List.length_append]
      rcases hcallee with rfl | hcallee
      · exact ⟨_, ⟨_, _, ⟨_, hroutine, hbelow⟩, rfl⟩, by omega⟩
      · obtain ⟨size, hsize, hless⟩ := ih hcallee
        exact ⟨size, hsize, by omega⟩

/-- An operation is larger than those that it calls. -/
theorem SizeBeyond.of_calls (hsize : HasSize routines number size)
    (hcalls : Calls routines number callee) (hbeyond : SizeBeyond routines limit callee) :
    SizeBeyond routines limit number := by
  obtain ⟨steps, followed, ⟨routine, hroutine, hinlines⟩, rfl⟩ := hsize
  obtain ⟨below, hbelow, hless⟩ := hinlines.lt_of_call ((calls_iff_mem hroutine).mp hcalls)
  obtain ⟨other, hother, hlimit⟩ := hbeyond
  rw [hother.unique hbelow] at hlimit
  exact ⟨_, ⟨steps, followed, ⟨routine, hroutine, hinlines⟩, rfl⟩, hlimit.trans hless⟩

/-- A chain of calls goes on from an operation through each that it calls. -/
theorem DepthBeyond.of_calls (hcalls : Calls routines number callee)
    (hbeyond : DepthBeyond routines limit callee) : DepthBeyond routines limit number := by
  obtain ⟨_, ⟨chain, hchain, rfl⟩, hlimit⟩ := hbeyond
  exact ⟨chain.length + 1, ⟨callee :: chain, hchain.cons_cons hcalls, rfl⟩, by omega⟩

/-! ### The first operations beyond a limit -/

theorem beyond_of_reaches
    (hgrows : ∀ caller callee, Calls routines caller callee → beyond callee → beyond caller)
    {reached : Nat} (hreached : Relation.ReflTransGen (Calls routines) number reached)
    (hbeyond : beyond reached) : beyond number := by
  induction hreached using Relation.ReflTransGen.head_induction_on with
  | refl => exact hbeyond
  | head hcalls _ ih => exact hgrows _ _ hcalls ih

/-- What grows from callees to callers is first beyond a limit where no callee is beyond it. -/
theorem firstBeyond_iff
    (hgrows : ∀ caller callee, Calls routines caller callee → beyond callee → beyond caller) :
    FirstBeyond routines beyond number ↔
      beyond number ∧ ∀ callee, Calls routines number callee → ¬ beyond callee := by
  refine and_congr_right fun _ => ⟨fun hnone callee hcalls => hnone callee (.single hcalls), ?_⟩
  intro hcallees reached hreached hbeyond
  obtain ⟨callee, hcalls, hrest⟩ := Relation.TransGen.head'_iff.mp hreached
  exact hcallees callee hcalls (beyond_of_reaches hgrows hrest hbeyond)

theorem crosses_iff (hoperation : program.operations[number]? = some operation) :
    crosses program figure limit operation ↔
      limit < figure operation.figures ∧
        ∀ callee below, Calls program.routines number callee →
          program.operations[callee]? = some below → figure below.figures ≤ limit := by
  have hroutine := routine_of_operation hoperation
  simp only [crosses, Bool.and_eq_true, decide_eq_true_eq, List.all_eq_true, List.mem_filterMap,
    calls_iff_mem hroutine]
  refine and_congr_right fun _ => ⟨fun hall callee below hcallee hbelow => ?_,
    fun hall below hbelow => ?_⟩
  · exact hall below ⟨callee, hcallee, hbelow⟩
  · obtain ⟨callee, hcallee, hfound⟩ := hbelow
    exact hall callee below hcallee hfound

namespace Measured

/-- Where a figure tells what is beyond a limit, it crosses the limit at the first ones beyond. -/
theorem crosses_iff_firstBeyond (hmeasured : Measured program)
    (hfigure : ∀ number operation, program.operations[number]? = some operation →
      (limit < figure operation.figures ↔ beyond number))
    (hgrows : ∀ caller callee, Calls program.routines caller callee → beyond callee →
      beyond caller)
    (hoperation : program.operations[number]? = some operation) :
    crosses program figure limit operation ↔ FirstBeyond program.routines beyond number := by
  rw [crosses_iff hoperation, firstBeyond_iff hgrows, hfigure number operation hoperation]
  refine and_congr_right fun _ => ⟨fun hkept callee hcalls hbeyond => ?_,
    fun hnone callee below hcalls hbelow => ?_⟩
  · have hbelow := Array.getElem?_eq_getElem (hmeasured.callee_lt hcalls)
    have hle := hkept callee _ hcalls hbelow
    exact Nat.not_lt.mpr hle ((hfigure callee _ hbelow).mpr hbeyond)
  · exact Nat.not_lt.mp fun hless => hnone callee hcalls ((hfigure callee below hbelow).mp hless)

/-- If any operation is beyond something, there is a first one. -/
theorem exists_firstBeyond (hmeasured : Measured program)
    (hgrows : ∀ caller callee, Calls program.routines caller callee → beyond callee →
      beyond caller)
    (hnumber : number < program.operations.size) (hbeyond : beyond number) :
    ∃ first, FirstBeyond program.routines beyond first := by
  revert hbeyond
  refine hmeasured.induction (motive := fun number => beyond number → _) ?_ number hnumber
  intro number hcallees hbeyond
  by_cases hnone : ∀ callee, Calls program.routines number callee → ¬ beyond callee
  · exact ⟨number, (firstBeyond_iff hgrows).mpr ⟨hbeyond, hnone⟩⟩
  · simp only [not_forall, not_not] at hnone
    obtain ⟨callee, hcalls, hcallee⟩ := hnone
    exact hcallees callee hcalls hcallee

theorem hasSize (hmeasured : Measured program) (hnumber : number < program.operations.size) :
    ∃ size, HasSize program.routines number size := by
  obtain ⟨steps, calls, depth, hinlines, -⟩ :=
    hmeasured.figures number _ (Array.getElem?_eq_getElem hnumber)
  exact ⟨_, steps, calls, hinlines, rfl⟩

theorem sizeBeyond_of_calls (hmeasured : Measured program) {caller : Nat}
    (hcalls : Calls program.routines caller callee)
    (hbeyond : SizeBeyond program.routines limit callee) :
    SizeBeyond program.routines limit caller := by
  have hbound : caller < program.operations.size := by
    simpa [Program.routines] using hcalls.caller_lt
  obtain ⟨size, hsize⟩ := hmeasured.hasSize hbound
  exact hbeyond.of_calls hsize hcalls

end Measured

/-! ### Figures and limits -/

theorem Figures.AreOf.lt_steps_iff {figures : Figures} (hfigures : figures.AreOf routines number)
    (hlimit : limit < maxCount) : limit < figures.steps ↔ SizeBeyond routines limit number := by
  obtain ⟨steps, calls, depth, hinlines, -, htell⟩ := hfigures
  have hsize : HasSize routines number (steps.length + calls) := ⟨steps, calls, hinlines, rfl⟩
  rw [htell.steps, Nat.lt_min]
  constructor
  · exact fun hless => ⟨_, hsize, hless.2⟩
  · rintro ⟨size, hother, hless⟩
    rw [hother.unique hsize] at hless
    exact ⟨hlimit, hless⟩

theorem Figures.AreOf.lt_callDepth_iff {figures : Figures}
    (hfigures : figures.AreOf routines number)
    (hfits : limit < maxCount ∨ ∀ depth ∈ chainsBelow routines number, depth ≤ maxCount) :
    limit < figures.callDepth ↔ DepthBeyond routines limit number := by
  obtain ⟨steps, calls, depth, -, hdepth, htell⟩ := hfigures
  rw [htell.callDepth, Nat.lt_min]
  constructor
  · exact fun hless => ⟨depth, hdepth.1, hless.2⟩
  · rintro ⟨other, hother, hless⟩
    have hlonger : limit < depth := Nat.lt_of_lt_of_le hless (hdepth.2 hother)
    refine ⟨hfits.elim id fun hbound => ?_, hlonger⟩
    exact Nat.lt_of_lt_of_le hlonger (hbound depth hdepth.1)

/-! ### The errors of compilation -/

theorem flatMap_ite {α β : Type} (keeps : α → Bool) (report : α → β) (values : List α) :
    (values.flatMap fun value => if keeps value then [report value] else []) =
      (values.filter keeps).map report := by
  induction values with
  | nil => rfl
  | cons first others ih =>
      rw [List.flatMap_cons, ih]
      cases hfirst : keeps first <;> simp [hfirst]

/-- The error for an inlined size. -/
def sizeError (limit : Nat) (operation : Operation) : ProgramError :=
  .located operation.location (.programTooLarge operation.name operation.figures.steps limit)

/-- The error for a chain of calls. -/
def depthError (limit : Nat) (operation : Operation) : ProgramError :=
  .located operation.location (.callTooDeep operation.name operation.figures.callDepth limit)

theorem sizeErrors_eq (limits : Limits) (program : Program) (operation : Operation) :
    sizeErrors limits program operation =
      (if crosses program (·.steps) limits.maxSteps operation then
        [sizeError limits.maxSteps operation] else []) ++
      (if crosses program (·.callDepth) limits.maxCallDepth operation then
        [depthError limits.maxCallDepth operation] else []) := by
  simp only [sizeErrors, crosses, List.map_append, apply_ite (List.map _), List.map_nil,
    List.map_singleton, sizeError, depthError]
  rfl

theorem qubitErrors_filter {isAmong : ProgramError → Bool}
    (hnone : ∀ location name qubits limit,
      isAmong (.located location (.tooManyQubits name qubits limit)) = false) :
    (qubitErrors limits operation).filter isAmong = [] := by
  simp only [qubitErrors]
  split
  · simp [hnone]
  · rfl

/-- The errors of one kind among those of sizes are made where the figure of this kind crosses. -/
theorem filter_flatMap {isAmong : ProgramError → Bool} {keeps : Operation → Bool}
    {report : Operation → ProgramError} {operations : List Operation}
    (hsizes : ∀ operation, (sizeErrors limits program operation).filter isAmong =
      if keeps operation then [report operation] else [])
    (hqubits : ∀ operation, (qubitErrors limits operation).filter isAmong = []) :
    (operations.flatMap (sizeErrors limits program) ++
        operations.flatMap (qubitErrors limits)).filter isAmong =
      (operations.filter keeps).map report := by
  have hnone : (operations.flatMap (qubitErrors limits)).filter isAmong = [] := by
    rw [List.filter_flatMap, List.flatMap_eq_nil_iff]
    exact fun operation _ => hqubits operation
  rw [List.filter_append, hnone, List.append_nil, List.filter_flatMap, ← flatMap_ite]
  exact congrArg (operations.flatMap ·) (funext hsizes)

theorem filter_isTooLarge (limits : Limits) (program : Program) :
    (program.operations.toList.flatMap (sizeErrors limits program) ++
        program.operations.toList.flatMap (qubitErrors limits)).filter (·.isTooLarge) =
      (program.operations.toList.filter (crosses program (·.steps) limits.maxSteps)).map
        (sizeError limits.maxSteps) := by
  apply filter_flatMap
  · intro operation
    rw [sizeErrors_eq, List.filter_append]
    split <;> split <;> rfl
  · exact fun operation => qubitErrors_filter fun _ _ _ _ => rfl

theorem filter_isTooDeep (limits : Limits) (program : Program) :
    (program.operations.toList.flatMap (sizeErrors limits program) ++
        program.operations.toList.flatMap (qubitErrors limits)).filter (·.isTooDeep) =
      (program.operations.toList.filter
        (crosses program (·.callDepth) limits.maxCallDepth)).map
        (depthError limits.maxCallDepth) := by
  apply filter_flatMap
  · intro operation
    rw [sizeErrors_eq, List.filter_append]
    split <;> split <;> rfl
  · exact fun operation => qubitErrors_filter fun _ _ _ _ => rfl

/-- The reports of a figure that tells what is beyond a limit stand at the first ones beyond it. -/
theorem Measured.reportsFirst (hmeasured : Measured program) {report : Operation → ProgramError}
    {tells : Nat → ProgramError → Prop}
    (hfigure : ∀ number operation, program.operations[number]? = some operation →
      (limit < figure operation.figures ↔ beyond number))
    (hgrows : ∀ caller callee, Calls program.routines caller callee → beyond callee →
      beyond caller)
    (hbounded : ∀ number, beyond number → number < program.operations.size)
    (htells : ∀ number operation, program.operations[number]? = some operation →
      tells number (report operation)) :
    ReportsFirst program.routines beyond tells
      ((program.operations.toList.filter (crosses program figure limit)).map report) := by
  refine ⟨program.numbersWhere (crosses program figure limit), ?_, fun number => ?_, ?_⟩
  · exact List.pairwise_lt_range.filter _
  · rw [mem_numbersWhere]
    constructor
    · rintro ⟨operation, hoperation, hcrosses⟩
      exact (hmeasured.crosses_iff_firstBeyond hfigure hgrows hoperation).mp hcrosses
    · intro hfirst
      have hoperation := Array.getElem?_eq_getElem (hbounded number hfirst.1)
      have hcrosses := hmeasured.crosses_iff_firstBeyond hfigure hgrows hoperation
      exact ⟨_, hoperation, hcrosses.mpr hfirst⟩
  · have hsame := numbersWhere_map program (crosses program figure limit)
    rw [← List.forall₂_eq_eq_eq, List.forall₂_map_left_iff, List.forall₂_map_right_iff] at hsame
    rw [List.forall₂_map_right_iff]
    exact hsame.imp htells

/-- If any operation is beyond something, there is a report. -/
theorem Measured.exists_report (hmeasured : Measured program) {isAmong : ProgramError → Bool}
    {tells : Nat → ProgramError → Prop} {errors : List ProgramError}
    (hgrows : ∀ caller callee, Calls program.routines caller callee → beyond callee →
      beyond caller)
    (hbounded : ∀ number, beyond number → number < program.operations.size)
    (hreports : ReportsFirst program.routines beyond tells (errors.filter isAmong))
    (hsome : ∃ number, beyond number) : ∃ error ∈ errors, isAmong error := by
  obtain ⟨number, hbeyond⟩ := hsome
  obtain ⟨first, hfirst⟩ :=
    hmeasured.exists_firstBeyond hgrows (hbounded number hbeyond) hbeyond
  obtain ⟨numbers, -, hnumbers, htells⟩ := hreports
  have hreported : errors.filter isAmong ≠ [] := by
    intro hnil
    rw [hnil] at htells
    cases htells
    nomatch (hnumbers first).mpr hfirst
  obtain ⟨error, herror⟩ := List.exists_mem_of_ne_nil _ hreported
  exact ⟨error, List.mem_filter.mp herror⟩

theorem HasSize.lt_size (hsize : HasSize routines number size) : number < routines.size := by
  obtain ⟨steps, calls, ⟨routine, hroutine, -⟩, -⟩ := hsize
  exact (Array.getElem?_eq_some_iff.mp hroutine).1

theorem SizeBeyond.lt_size (hbeyond : SizeBeyond routines limit number) :
    number < routines.size := by
  obtain ⟨size, hsize, -⟩ := hbeyond
  exact hsize.lt_size

theorem DepthBeyond.lt_size (hbeyond : DepthBeyond routines limit number) :
    number < routines.size := by
  obtain ⟨_, ⟨chain, hchain, rfl⟩, hlimit⟩ := hbeyond
  cases chain with
  | nil => nomatch hlimit
  | cons callee others => exact (List.isChain_cons_cons.mp hchain).1.caller_lt

namespace Measured

theorem operation_routine (hoperation : program.operations[number]? = some operation) :
    program.routines[number]? = some operation.toRoutine := by
  rw [routines_getElem?, hoperation, Option.map_some]

theorem lt_operations_size (hnumber : number < program.routines.size) :
    number < program.operations.size := by
  simpa [Program.routines] using hnumber

theorem reports_sizes (hmeasured : Measured program) (hlimit : limits.maxSteps < maxCount) :
    ReportsFirst program.routines (SizeBeyond program.routines limits.maxSteps)
      (TellsSize program.routines limits.maxSteps)
      ((program.operations.toList.flatMap (sizeErrors limits program) ++
        program.operations.toList.flatMap (qubitErrors limits)).filter (·.isTooLarge)) := by
  rw [filter_isTooLarge]
  apply hmeasured.reportsFirst
  · exact fun number operation hoperation =>
      (hmeasured.figures number operation hoperation).lt_steps_iff hlimit
  · exact fun caller callee hcalls => hmeasured.sizeBeyond_of_calls hcalls
  · exact fun number hbeyond => lt_operations_size hbeyond.lt_size
  · intro number operation hoperation
    obtain ⟨steps, calls, depth, hinlines, -, htell⟩ :=
      hmeasured.figures number operation hoperation
    refine ⟨_, _, operation_routine hoperation, ⟨steps, calls, hinlines, rfl⟩, ?_⟩
    rw [sizeError, htell.steps]
    rfl

theorem reports_depths (hmeasured : Measured program)
    (hfits : limits.maxCallDepth < maxCount ∨ program.operations.size ≤ UInt64.size) :
    ReportsFirst program.routines (DepthBeyond program.routines limits.maxCallDepth)
      (TellsDepth program.routines limits.maxCallDepth)
      ((program.operations.toList.flatMap (sizeErrors limits program) ++
        program.operations.toList.flatMap (qubitErrors limits)).filter (·.isTooDeep)) := by
  rw [filter_isTooDeep]
  apply hmeasured.reportsFirst
  · intro number operation hoperation
    have hnumber := (Array.getElem?_eq_some_iff.mp hoperation).1
    apply (hmeasured.figures number operation hoperation).lt_callDepth_iff
    refine hfits.imp_right fun hsize depth hdepth => ?_
    have hless := hmeasured.chainsBelow_lt hnumber depth hdepth
    exact Nat.le_sub_one_of_lt (Nat.lt_of_lt_of_le hless hsize)
  · exact fun caller callee hcalls => DepthBeyond.of_calls hcalls
  · exact fun number hbeyond => lt_operations_size hbeyond.lt_size
  · intro number operation hoperation
    obtain ⟨steps, calls, depth, -, hdepth, htell⟩ :=
      hmeasured.figures number operation hoperation
    refine ⟨_, _, operation_routine hoperation, hdepth, ?_⟩
    rw [depthError, htell.callDepth]
    rfl

end Measured

/-- Without cycles of calls every operation has an inlined size and a longest chain of calls below
it.  Compilation reports sizes beyond the limit at the operations where it is first crossed, one
error for each, and if any size is beyond it there is a report; and likewise for chains of calls, as
long as their limit or their number fits in a machine word. -/
theorem compile_reports_first {resolved : List Routine}
    (hparsed : List.Forall₂ (fun source file => parse source = .ok file) sources files)
    (hresolved : resolve files = .ok resolved)
    (hacyclic : ∀ number, ¬ Relation.TransGen (Calls resolved.toArray) number number)
    (hlimit : limits.maxSteps < UInt64.size - 1) :
    (∀ number < resolved.length, (∃ size, HasSize resolved.toArray number size) ∧
      ∃ depth, IsGreatest (chainsBelow resolved.toArray number) depth) ∧
    ReportsFirst resolved.toArray (SizeBeyond resolved.toArray limits.maxSteps)
      (TellsSize resolved.toArray limits.maxSteps)
      ((errorsOf (compile sources limits)).filter (·.isTooLarge)) ∧
    ((∃ number, SizeBeyond resolved.toArray limits.maxSteps number) →
      ∃ error ∈ errorsOf (compile sources limits), error.isTooLarge) ∧
    (limits.maxCallDepth < UInt64.size - 1 ∨ resolved.length ≤ UInt64.size →
      ReportsFirst resolved.toArray (DepthBeyond resolved.toArray limits.maxCallDepth)
        (TellsDepth resolved.toArray limits.maxCallDepth)
        ((errorsOf (compile sources limits)).filter (·.isTooDeep)) ∧
      ((∃ number, DepthBeyond resolved.toArray limits.maxCallDepth number) →
        ∃ error ∈ errorsOf (compile sources limits), error.isTooDeep)) := by
  have hclosed := resolved_callee_lt (resolve_ok_iff.mp hresolved).2
  have hnone := (callOrder_callsIn_cycles_eq_nil_iff hclosed).mpr hacyclic
  have hmeasured := Measured.ofRoutines hclosed hnone
  have hlength : (ofRoutines resolved.toArray).operations.size = resolved.length := by
    rw [ofRoutines_size, List.size_toArray]
  rw [compile_of_parsed hparsed, errorsOf_of_acyclic hresolved hnone]
  have hsizes := hmeasured.reports_sizes hlimit
  have hlarge := hmeasured.exists_report (fun _ _ hcalls => hmeasured.sizeBeyond_of_calls hcalls)
    (fun _ hbeyond => Measured.lt_operations_size hbeyond.lt_size) hsizes
  refine ⟨fun number hnumber => ?_, ?_, ?_, fun hfits => ?_⟩
  · have hoperation := Array.getElem?_eq_getElem (hlength.symm ▸ hnumber)
    obtain ⟨steps, calls, depth, hinlines, hdepth, -⟩ := hmeasured.figures number _ hoperation
    rw [ofRoutines_routines] at hinlines hdepth
    exact ⟨⟨_, steps, calls, hinlines, rfl⟩, depth, hdepth⟩
  · rwa [ofRoutines_routines] at hsizes
  · rwa [ofRoutines_routines] at hlarge
  · have hdepths := hmeasured.reports_depths (hfits.imp_right fun hsize => hlength.symm ▸ hsize)
    have hdeep := hmeasured.exists_report (fun _ _ hcalls => DepthBeyond.of_calls hcalls)
      (fun _ hbeyond => Measured.lt_operations_size hbeyond.lt_size) hdepths
    rw [ofRoutines_routines] at hdepths hdeep
    exact ⟨hdepths, hdeep⟩

/-- What `nestedCall` resolves to. -/
def nestedCallRoutines : List Routine :=
  [⟨⟨none, "A"⟩, false, ⟨"nested.qb", 1⟩, [⟨.call 1, 1⟩]⟩,
    ⟨⟨none, "B"⟩, false, ⟨"nested.qb", 1⟩, [⟨.perform (.reset 1), 1⟩]⟩]

/-- The operation that calls is beyond limits that the one called keeps. -/
theorem compile_reports_first_nestedCall :
    List.Forall₂ (fun source file => parse source = .ok file) [nestedCall] [nestedCallFile] ∧
      resolve [nestedCallFile] = .ok nestedCallRoutines ∧
      (∀ number, ¬ Relation.TransGen (Calls nestedCallRoutines.toArray) number number) ∧
      (Limits.mk 20 1 0).maxSteps < UInt64.size - 1 ∧
      (∃ error ∈ errorsOf (compile [nestedCall] ⟨20, 1, 0⟩), error.isTooLarge) ∧
      ∃ error ∈ errorsOf (compile [nestedCall] ⟨20, 1, 0⟩), error.isTooDeep := by
  have hparsed : List.Forall₂ (fun source file => parse source = .ok file) [nestedCall]
      [nestedCallFile] := .cons parse_nestedCall .nil
  have hresolved : resolve [nestedCallFile] = .ok nestedCallRoutines := by
    decide
  have hacyclic : ∀ number,
      ¬ Relation.TransGen (Calls nestedCallRoutines.toArray) number number := by
    apply (callOrder_callsIn_cycles_eq_nil_iff (by decide)).mp
    cbv
  have hlimit : (Limits.mk 20 1 0).maxSteps < UInt64.size - 1 := by
    decide
  obtain ⟨-, -, hlarge, hdepths⟩ := compile_reports_first hparsed hresolved hacyclic hlimit
  refine ⟨hparsed, hresolved, hacyclic, hlimit, hlarge ⟨0, 2, ?_, by decide⟩,
    (hdepths (.inl (by decide))).2 ⟨0, 1, ⟨[1], ?_, rfl⟩, by decide⟩⟩
  · exact ⟨_, _, ⟨_, rfl, .call rfl (.perform (.done _)) (.done _)⟩, rfl⟩
  · exact .cons_cons ⟨_, rfl, by decide⟩ (.singleton 1)

end GateBench.Program
