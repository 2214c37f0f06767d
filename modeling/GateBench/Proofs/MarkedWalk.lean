import GateBench.Proofs.CheckedLookups
import GateBench.Proofs.CycleReports
import GateBench.Proofs.Runs
import Mathlib.Algebra.GroupWithZero.Nat

/-!
The walk over a call graph as a machine.  Every operation has a mark, and the stack holds for each
active operation the place of its next statement; all lookups of marks and bodies may fail.  The
machine makes the moves of `walk` and others in between, over statements that call nothing and over
operations that are visited already; it always ends, with the order and the errors of `callOrder`.
-/

namespace GateBench.Program

/-- How far the walk of an operation has come. -/
inductive Mark where
  | unvisited
  | active
  | done
deriving DecidableEq, Repr

/-- An active operation, and the place in its body where its walk goes on. -/
structure Place where
  operation : Nat
  next : Nat
deriving DecidableEq, Repr

/-- The state of the machine.  `root` is the operation at which it looks when the stack is empty;
the stack has the innermost frame last, and `order` and `errors` what was found last. -/
structure MarkedWalk where
  root : Nat
  marks : Array Mark
  frames : List Place
  order : List Nat
  errors : List ProgramError

/-- The error for a call that leads back to an active operation: the names on the stack from that
operation on, and its own again. -/
def closingError? (routines : Array Routine) (frames : List Place) (caller : Routine)
    (callee line : Nat) : Option ProgramError := do
  let start := (frames.findIdx? (·.operation = callee)).getD 0
  let names ← (frames.drop start).mapM fun place => nameIn routines place.operation
  let first ← nameIn routines callee
  return .located ⟨caller.location.source, line⟩ (.callCycle (names ++ [first]))

namespace MarkedWalk

/-- Before the first move. -/
def start (routines : Array Routine) : MarkedWalk :=
  ⟨0, Array.replicate routines.size .unvisited, [], [], []⟩

/-- Begin the walk of an operation. -/
def enter? (marked : MarkedWalk) (operation : Nat) : Option MarkedWalk := do
  let marks ← put? marked.marks operation .active
  return { marked with marks, frames := marked.frames ++ [⟨operation, 0⟩] }

/-- Look at the next operation when no walk is going on. -/
def nextRoot? (routines : Array Routine) (marked : MarkedWalk) : Option MarkedWalk :=
  if marked.root < routines.size then do
    let mark ← marked.marks[marked.root]?
    let passed := { marked with root := marked.root + 1 }
    if mark = .unvisited then passed.enter? marked.root else some passed
  else none

/-- Follow a call of the innermost operation. -/
def follow? (routines : Array Routine) (marked : MarkedWalk) (caller : Routine)
    (callee line : Nat) : Option MarkedWalk := do
  match ← marked.marks[callee]? with
  | .unvisited => marked.enter? callee
  | .active =>
    let error ← closingError? routines marked.frames caller callee line
    return { marked with errors := marked.errors ++ [error] }
  | .done => some marked

/-- One move; none when the walk has ended, or when a lookup fails. -/
def turn? (routines : Array Routine) (marked : MarkedWalk) : Option MarkedWalk :=
  match marked.frames.getLast? with
  | none => marked.nextRoot? routines
  | some ⟨operation, next⟩ => do
    let caller ← routines[operation]?
    match caller.body[next]? with
    | none =>
      let marks ← put? marked.marks operation .done
      return { marked with
        marks, frames := marked.frames.dropLast, order := marked.order ++ [operation] }
    | some step =>
      let moved := { marked with frames := marked.frames.dropLast ++ [⟨operation, next + 1⟩] }
      match step.action with
      | .perform _ => some moved
      | .call callee => moved.follow? routines caller callee step.line

/-- The order and the errors, once all operations were looked at. -/
def result? (routines : Array Routine) (marked : MarkedWalk) :
    Option (List Nat × List ProgramError) :=
  if marked.frames = [] ∧ routines.size ≤ marked.root then some (marked.order, marked.errors)
  else none

/-- A move of the machine. -/
def Moves (routines : Array Routine) (marked next : MarkedWalk) : Prop :=
  marked.turn? routines = some next

end MarkedWalk

/-! ### What the machine keeps -/

/-- The body of the operation of a number. -/
def bodyIn (routines : Array Routine) (number : Nat) : List Step :=
  (routines[number]?.map (·.body)).getD []

/-- The calls of a body, in order. -/
def sitesOf (body : List Step) : List CallSite :=
  body.filterMap fun step => step.action.callee?.map fun callee => ⟨callee, step.line⟩

/-- An active operation with the calls that are still to be followed. -/
def Place.frame (routines : Array Routine) (place : Place) : Frame :=
  ⟨place.operation, sitesOf ((bodyIn routines place.operation).drop place.next)⟩

/-- The stack, innermost first, with the calls that are still to be followed. -/
def framesOf (routines : Array Routine) (places : List Place) : List Frame :=
  (places.map (·.frame routines)).reverse

/-- The operations that are not visited, in ascending order. -/
def unvisitedIn (marks : Array Mark) : List Nat :=
  (List.range marks.size).filter (marks[·]? = some .unvisited)

namespace MarkedWalk

/-- What `walk` finds from here on, when `cycles` were found, latest first. -/
def onward (routines : Array Routine) (marked : MarkedWalk) (cycles : List CallCycle) : CallOrder :=
  walk (callsIn routines) (unvisitedIn marked.marks) (framesOf routines marked.frames)
    marked.order.reverse cycles

/-- What is left to do: the operations to look at, and for each unvisited or active operation its
statements and its end. -/
def weight (routines : Array Routine) (marked : MarkedWalk) : Nat :=
  (routines.size - marked.root) +
    ((unvisitedIn marked.marks).map fun number => (bodyIn routines number).length + 1).sum +
    (marked.frames.map fun place =>
      (bodyIn routines place.operation).length - place.next + 1).sum

/-- The machine is where `walk` is.  Its marks tell which operations are unvisited and which are on
the stack, those before `root` are visited, and its errors are those of the cycles found. -/
structure Tracks (routines : Array Routine) (marked : MarkedWalk) (cycles : List CallCycle) :
    Prop where
  walking : Walking (callsIn routines) routines.size (unvisitedIn marked.marks)
    (framesOf routines marked.frames) marked.order.reverse
  size : marked.marks.size = routines.size
  active : ∀ number, marked.marks[number]? = some .active ↔
    number ∈ marked.frames.map (·.operation)
  passed : ∀ number ∈ unvisitedIn marked.marks, marked.root ≤ number
  errors : marked.errors = cycles.reverse.map (cycleError routines)

/-- The machine makes a move towards what `walk` finds. -/
def Advances (routines : Array Routine) (marked : MarkedWalk) (cycles : List CallCycle) : Prop :=
  ∃ next more, Moves routines marked next ∧ Tracks routines next more ∧
    next.onward routines more = marked.onward routines cycles ∧
    next.weight routines < marked.weight routines

/-- The machine is on its way to what `callOrder` finds. -/
def OnCourse (routines : Array Routine) (marked : MarkedWalk) : Prop :=
  ∃ cycles, Tracks routines marked cycles ∧
    marked.onward routines cycles = callOrder routines.size (callsIn routines)

end MarkedWalk

variable {routines : Array Routine} {marked : MarkedWalk} {cycles : List CallCycle}
  {root operation next number callee line : Nat} {marks : Array Mark} {outer places : List Place}
  {order : List Nat} {errors : List ProgramError} {caller : Routine} {step : Step}

/-! ### Bodies and frames -/

theorem bodyIn_eq (hcaller : routines[operation]? = some caller) :
    bodyIn routines operation = caller.body := by
  rw [bodyIn, hcaller, Option.map_some, Option.getD_some]

theorem sitesOf_bodyIn (routines : Array Routine) (number : Nat) :
    sitesOf (bodyIn routines number) = callsIn routines number := by
  unfold bodyIn callsIn
  cases routines[number]? <;> rfl

theorem Place.frame_zero (routines : Array Routine) (operation : Nat) :
    (Place.mk operation 0).frame routines = ⟨operation, callsIn routines operation⟩ := by
  simp [Place.frame, sitesOf_bodyIn]

theorem framesOf_concat (routines : Array Routine) (outer : List Place) (place : Place) :
    framesOf routines (outer ++ [place]) = place.frame routines :: framesOf routines outer := by
  simp [framesOf]

theorem framesOf_operations (routines : Array Routine) (places : List Place) :
    (framesOf routines places).map (·.operation) = (places.map (·.operation)).reverse := by
  rw [framesOf, List.map_reverse, List.map_map]
  rfl

theorem Place.frame_ended (hcaller : routines[operation]? = some caller)
    (hended : caller.body[next]? = none) :
    (Place.mk operation next).frame routines = ⟨operation, []⟩ := by
  have hlength := List.getElem?_eq_none_iff.mp hended
  simp only [Place.frame, bodyIn_eq hcaller, List.drop_eq_nil_of_le hlength]
  rfl

/-- The next statement is in front of those behind it. -/
theorem Place.frame_step (hcaller : routines[operation]? = some caller)
    (hstep : caller.body[next]? = some step) :
    (Place.mk operation next).frame routines =
      ⟨operation, sitesOf [step] ++ ((Place.mk operation (next + 1)).frame routines).pending⟩ := by
  obtain ⟨hnext, rfl⟩ := List.getElem?_eq_some_iff.mp hstep
  simp only [Place.frame, bodyIn_eq hcaller, List.drop_eq_getElem_cons hnext, sitesOf,
    ← List.filterMap_append, List.singleton_append]

/-- The stack as `walk` sees it before a call and after it. -/
theorem framesOf_call (hcaller : routines[operation]? = some caller)
    (hstep : caller.body[next]? = some step) (haction : step.action = .call callee)
    (outer : List Place) :
    ∃ pending,
      framesOf routines (outer ++ [⟨operation, next⟩]) =
        ⟨operation, ⟨callee, step.line⟩ :: pending⟩ :: framesOf routines outer ∧
      framesOf routines (outer ++ [⟨operation, next + 1⟩]) =
        ⟨operation, pending⟩ :: framesOf routines outer := by
  refine ⟨((Place.mk operation (next + 1)).frame routines).pending, ?_, ?_⟩
  · rw [framesOf_concat, Place.frame_step hcaller hstep]
    simp [sitesOf, haction, StepAction.callee?]
  · rw [framesOf_concat]
    rfl

/-! ### Marks -/

theorem mem_unvisitedIn : number ∈ unvisitedIn marks ↔ marks[number]? = some .unvisited := by
  simp only [unvisitedIn, List.mem_filter, List.mem_range, decide_eq_true_eq, and_iff_right_iff_imp]
  exact fun hmark => (Array.getElem?_eq_some_iff.mp hmark).1

theorem unvisitedIn_pairwise (marks : Array Mark) : (unvisitedIn marks).Pairwise (· < ·) :=
  List.pairwise_lt_range.filter _

/-- A mark takes its operation from the unvisited ones. -/
theorem unvisitedIn_set {mark : Mark} (hmark : mark ≠ .unvisited) (hnumber : number < marks.size) :
    unvisitedIn (marks.set number mark hnumber) = (unvisitedIn marks).erase number := by
  have hnodup : (unvisitedIn marks).Nodup := List.nodup_range.filter _
  rw [hnodup.erase_eq_filter]
  simp only [unvisitedIn, Array.size_set, List.filter_filter]
  apply List.filter_congr
  intro other _
  by_cases hother : number = other
  · simp [hother, hmark]
  · simp [hother, Ne.symm hother]

theorem active_set_active (hnumber : number < marks.size) :
    (marks.set number .active hnumber)[operation]? = some .active ↔
      marks[operation]? = some .active ∨ operation = number := by
  by_cases hother : number = operation
  · simp [hother]
  · simp [hother, Ne.symm hother]

theorem active_set_done (hnumber : number < marks.size) :
    (marks.set number .done hnumber)[operation]? = some .active ↔
      marks[operation]? = some .active ∧ operation ≠ number := by
  by_cases hother : number = operation
  · simp [hother]
  · simp [hother, Ne.symm hother]

/-- The operation at which the machine looks is the first unvisited one, if it is unvisited. -/
theorem unvisitedIn_eq_cons (hroot : marks[root]? = some .unvisited)
    (hpassed : ∀ number ∈ unvisitedIn marks, root ≤ number) :
    unvisitedIn marks = root :: (unvisitedIn marks).erase root := by
  have hmem := mem_unvisitedIn.mpr hroot
  have hpairwise := unvisitedIn_pairwise marks
  cases hunvisited : unvisitedIn marks with
  | nil =>
      rw [hunvisited] at hmem
      nomatch hmem
  | cons first others =>
      rw [hunvisited] at hmem hpairwise hpassed
      rcases List.mem_cons.mp hmem with rfl | hmem
      · rw [List.erase_cons_head]
      · have hfirst := hpassed first List.mem_cons_self
        have hlater := (List.pairwise_cons.mp hpairwise).1 root hmem
        omega

/-! ### The error for a closing call -/

/-- The stack from an active operation on holds the operations of the cycle that it closes. -/
theorem drop_findIdx?_operations (hnodup : (places.map (·.operation)).Nodup)
    (hactive : callee ∈ places.map (·.operation)) :
    (places.drop ((places.findIdx? (·.operation = callee)).getD 0)).map (·.operation) =
      cyclePath callee (places.map (·.operation)).reverse := by
  obtain ⟨place, hplace, rfl⟩ := List.mem_map.mp hactive
  obtain ⟨before, after, rfl⟩ := List.append_of_mem hplace
  simp only [List.map_append, List.map_cons] at hnodup ⊢
  obtain ⟨-, hafter, hbefore⟩ := List.nodup_append.mp hnodup
  have hnone : before.findIdx? (·.operation = place.operation) = none := by
    apply List.findIdx?_eq_none_iff.mpr
    intro other hother
    exact decide_eq_false (hbefore _ (List.mem_map_of_mem hother) _ List.mem_cons_self)
  have htake : ((after.map (·.operation)).reverse ++
      place.operation :: (before.map (·.operation)).reverse).takeWhile (· ≠ place.operation) =
        (after.map (·.operation)).reverse := by
    rw [List.takeWhile_append_of_pos]
    · simp
    · intro other hother
      have hne : other ≠ place.operation := by
        rintro rfl
        exact (List.nodup_cons.mp hafter).1 (List.mem_reverse.mp hother)
      exact decide_eq_true hne
  simp only [List.findIdx?_append, hnone, List.findIdx?_cons, decide_true, cyclePath,
    List.reverse_append, List.reverse_cons, List.append_assoc, List.singleton_append, htake]
  simp

theorem closingError?_eq (hplaces : places = outer ++ [⟨operation, next⟩])
    (hcaller : routines[operation]? = some caller) (hnodup : (places.map (·.operation)).Nodup)
    (hbound : ∀ place ∈ places, place.operation < routines.size)
    (hactive : callee ∈ places.map (·.operation)) (line : Nat) :
    closingError? routines places caller callee line =
      some (cycleError routines ⟨pathFrom callee (framesOf routines places), line⟩) := by
  obtain ⟨place, hplace, hcallee⟩ := List.mem_map.mp hactive
  obtain ⟨name, hname⟩ := exists_nameIn (hcallee ▸ hbound place hplace)
  have hpath : pathFrom callee (framesOf routines places) =
      cyclePath callee (places.map (·.operation)).reverse := by
    rw [pathFrom_eq_cyclePath, framesOf_operations]
  have hlast : (pathFrom callee (framesOf routines places)).getLast? = some operation := by
    rw [hplaces, framesOf_concat]
    apply pathFrom_getLast?
    rw [← framesOf_concat, ← hplaces, framesOf_operations]
    exact List.mem_reverse.mpr hactive
  have hnames : ((places.drop ((places.findIdx? (·.operation = callee)).getD 0)).mapM
      fun place => nameIn routines place.operation) =
        some ((pathFrom callee (framesOf routines places)).filterMap (nameIn routines)) := by
    rw [mapM_eq_filterMap fun place hplace =>
      exists_nameIn (hbound place (List.mem_of_mem_drop hplace))]
    rw [hpath, ← drop_findIdx?_operations hnodup hactive, List.filterMap_map]
    rfl
  rw [cycleError_eq hlast hcaller, namesAround_eq (pathFrom_head? _ _) hname]
  simp only [closingError?, hnames, hname, Option.bind_eq_bind, Option.bind_some, Option.pure_def]

/-! ### The moves of the machine -/

namespace MarkedWalk

theorem enter?_eq (hnumber : number < marks.size) :
    (MarkedWalk.mk root marks places order errors).enter? number =
      some ⟨root, marks.set number .active hnumber, places ++ [⟨number, 0⟩], order, errors⟩ := by
  rw [enter?, put?_eq hnumber]
  rfl

theorem moves_leave (hcaller : routines[operation]? = some caller)
    (hended : caller.body[next]? = none) (hnumber : operation < marks.size) :
    Moves routines ⟨root, marks, outer ++ [⟨operation, next⟩], order, errors⟩
      ⟨root, marks.set operation .done hnumber, outer, order ++ [operation], errors⟩ := by
  simp [Moves, turn?, hcaller, hended, put?_eq hnumber]

theorem moves_perform (hcaller : routines[operation]? = some caller)
    (hstep : caller.body[next]? = some step) {instruction : Instruction}
    (haction : step.action = .perform instruction) :
    Moves routines ⟨root, marks, outer ++ [⟨operation, next⟩], order, errors⟩
      ⟨root, marks, outer ++ [⟨operation, next + 1⟩], order, errors⟩ := by
  simp [Moves, turn?, hcaller, hstep, haction]

theorem moves_call (hcaller : routines[operation]? = some caller)
    (hstep : caller.body[next]? = some step) (haction : step.action = .call callee)
    {after : MarkedWalk} :
    Moves routines ⟨root, marks, outer ++ [⟨operation, next⟩], order, errors⟩ after ↔
      (MarkedWalk.mk root marks (outer ++ [⟨operation, next + 1⟩]) order errors).follow?
        routines caller callee step.line = some after := by
  simp [Moves, turn?, hcaller, hstep, haction]

/-- Behind a statement there is less left to do. -/
theorem weight_step (hcaller : routines[operation]? = some caller)
    (hstep : caller.body[next]? = some step) {after : List ProgramError} :
    weight routines ⟨root, marks, outer ++ [⟨operation, next + 1⟩], order, after⟩ <
      weight routines ⟨root, marks, outer ++ [⟨operation, next⟩], order, errors⟩ := by
  have hnext := (List.getElem?_eq_some_iff.mp hstep).1
  simp only [weight, List.map_append, List.map_singleton, List.sum_append, List.sum_singleton,
    bodyIn_eq hcaller]
  omega

/-- At first every operation is unvisited. -/
theorem start_unvisitedIn (routines : Array Routine) :
    unvisitedIn (start routines).marks = List.range routines.size := by
  simp only [unvisitedIn, start, Array.size_replicate]
  apply List.filter_eq_self.mpr
  intro number hnumber
  simp [List.mem_range.mp hnumber]

namespace Tracks

theorem lt_size (htracks : Tracks routines marked cycles) :
    ∀ place ∈ marked.frames, place.operation < routines.size := by
  intro place hplace
  have hmem : place.operation ∈ (framesOf routines marked.frames).map (·.operation) := by
    rw [framesOf_operations]
    exact List.mem_reverse.mpr (List.mem_map_of_mem hplace)
  apply List.mem_range.mp
  apply htracks.walking.places.mem_iff.mp
  exact List.mem_append_left _ (List.mem_append_right _ hmem)

theorem nodup (htracks : Tracks routines marked cycles) :
    (marked.frames.map (·.operation)).Nodup := by
  have hnodup := (List.nodup_append.mp htracks.walking.nodup).2.1
  rwa [framesOf_operations, List.nodup_reverse] at hnodup

theorem mark_lt (htracks : Tracks routines marked cycles) {mark : Mark}
    (hmark : marked.marks[number]? = some mark) : number < routines.size := by
  rw [← htracks.size]
  exact (Array.getElem?_eq_some_iff.mp hmark).1

theorem initial (routines : Array Routine) : Tracks routines (start routines) [] := by
  refine ⟨?_, Array.size_replicate, ?_, ?_, rfl⟩
  · rw [start_unvisitedIn]
    exact Walking.initial _ _
  · simp [start, Array.getElem?_replicate]
  · exact fun number _ => Nat.zero_le number

/-- The next root is entered if nothing led to it. -/
theorem enterRoot (htracks : Tracks routines ⟨root, marks, [], order, errors⟩ cycles)
    (hroot : root < routines.size) (hmark : marks[root]? = some .unvisited) :
    Advances routines ⟨root, marks, [], order, errors⟩ cycles := by
  have hbound : root < marks.size := htracks.size.symm ▸ hroot
  have hfirst := unvisitedIn_eq_cons hmark htracks.passed
  have hafter : unvisitedIn (marks.set root .active hbound) = (unvisitedIn marks).erase root :=
    unvisitedIn_set (by decide) hbound
  have hwalking := htracks.walking
  rw [hfirst] at hwalking
  refine ⟨⟨root + 1, marks.set root .active hbound, [⟨root, 0⟩], order, errors⟩, cycles, ?turn,
    ⟨?walking, ?size, ?active, ?passed, htracks.errors⟩, ?onward, ?weight⟩
  case turn => simp [Moves, turn?, nextRoot?, hroot, hmark, enter?_eq hbound]
  case walking =>
    rw [hafter]
    simpa [framesOf, Place.frame_zero] using hwalking.enterRoot
  case size => rw [Array.size_set, htracks.size]
  case active =>
    intro number
    rw [active_set_active, htracks.active]
    simp
  case passed =>
    intro number hnumber
    rw [hafter] at hnumber
    have hle := htracks.passed number (List.mem_of_mem_erase hnumber)
    have hne : number ≠ root := by
      rintro rfl
      exact (List.nodup_cons.mp (hfirst ▸ List.nodup_range.filter _)).1 hnumber
    exact Nat.lt_of_le_of_ne hle (Ne.symm hne)
  case onward =>
    simp only [onward, hafter]
    rw [hfirst, List.erase_cons_head]
    simp [framesOf, Place.frame_zero, walk]
  case weight =>
    simp only [weight, hafter, List.map_cons, List.map_nil, List.sum_cons, List.sum_nil]
    rw [hfirst, List.erase_cons_head, List.map_cons, List.sum_cons]
    omega

/-- The next root is passed over if it was visited on the way. -/
theorem passRoot (htracks : Tracks routines ⟨root, marks, [], order, errors⟩ cycles)
    (hroot : root < routines.size) {mark : Mark} (hmark : marks[root]? = some mark)
    (hvisited : mark ≠ .unvisited) :
    Advances routines ⟨root, marks, [], order, errors⟩ cycles := by
  refine ⟨⟨root + 1, marks, [], order, errors⟩, cycles, ?turn,
    ⟨htracks.walking, htracks.size, htracks.active, ?passed, htracks.errors⟩, rfl, ?weight⟩
  case turn => simp [Moves, turn?, nextRoot?, hroot, hmark, hvisited]
  case passed =>
    intro number hnumber
    have hle := htracks.passed number hnumber
    have hne : number ≠ root := by
      rintro rfl
      exact hvisited (Option.some.inj (hmark.symm.trans (mem_unvisitedIn.mp hnumber)))
    exact Nat.lt_of_le_of_ne hle (Ne.symm hne)
  case weight =>
    simp only [weight]
    omega

theorem leave (htracks : Tracks routines
      ⟨root, marks, outer ++ [⟨operation, next⟩], order, errors⟩ cycles)
    (hcaller : routines[operation]? = some caller) (hended : caller.body[next]? = none) :
    Advances routines ⟨root, marks, outer ++ [⟨operation, next⟩], order, errors⟩ cycles := by
  have hnumber : operation < marks.size := by
    rw [htracks.size]
    exact htracks.lt_size ⟨operation, next⟩ (by simp)
  have hwalking := htracks.walking
  have hunvisited : (unvisitedIn marks).erase operation = unvisitedIn marks := by
    apply List.erase_of_not_mem
    intro hmem
    refine hwalking.not_mem_frames hmem ?_
    simp [framesOf_operations]
  have hafter : unvisitedIn (marks.set operation .done hnumber) = unvisitedIn marks :=
    (unvisitedIn_set (by decide) hnumber).trans hunvisited
  rw [framesOf_concat, Place.frame_ended hcaller hended] at hwalking
  refine ⟨_, cycles, moves_leave hcaller hended hnumber, ⟨?walking, ?size, ?active, ?passed,
    htracks.errors⟩, ?onward, ?weight⟩
  case walking =>
    rw [hafter]
    simpa using hwalking.leave
  case size => rw [Array.size_set, htracks.size]
  case active =>
    intro number
    have houter : operation ∉ outer.map (·.operation) := by
      have hnot := hwalking.not_mem_outer
      rwa [framesOf_operations, List.mem_reverse] at hnot
    rw [active_set_done, htracks.active, List.map_append, List.mem_append]
    constructor
    · rintro ⟨hmem | hlast, hne⟩
      · exact hmem
      · exact absurd (List.mem_singleton.mp hlast) hne
    · exact fun hmem => ⟨Or.inl hmem, fun heq => houter (heq ▸ hmem)⟩
  case passed =>
    rw [hafter]
    exact htracks.passed
  case onward =>
    simp only [onward, hafter, framesOf_concat, Place.frame_ended hcaller hended, walk,
      List.reverse_append, List.reverse_singleton, List.singleton_append]
  case weight =>
    simp only [weight, hafter, List.map_append, List.map_singleton, List.sum_append,
      List.sum_singleton]
    omega

/-- A statement that calls nothing leaves the stack as `walk` sees it. -/
theorem perform (htracks : Tracks routines
      ⟨root, marks, outer ++ [⟨operation, next⟩], order, errors⟩ cycles)
    (hcaller : routines[operation]? = some caller) (hstep : caller.body[next]? = some step)
    {instruction : Instruction} (haction : step.action = .perform instruction) :
    Advances routines ⟨root, marks, outer ++ [⟨operation, next⟩], order, errors⟩ cycles := by
  have hframe : (Place.mk operation next).frame routines =
      (Place.mk operation (next + 1)).frame routines := by
    rw [Place.frame_step hcaller hstep]
    simp [sitesOf, haction, StepAction.callee?, Place.frame]
  have hframes : framesOf routines (outer ++ [⟨operation, next + 1⟩]) =
      framesOf routines (outer ++ [⟨operation, next⟩]) := by
    rw [framesOf_concat, framesOf_concat, hframe]
  refine ⟨_, cycles, moves_perform hcaller hstep haction, ⟨?walking, htracks.size, ?active,
    htracks.passed, htracks.errors⟩, ?onward, ?weight⟩
  case walking =>
    rw [hframes]
    exact htracks.walking
  case active =>
    intro number
    rw [htracks.active]
    simp
  case onward => simp only [onward, hframes]
  case weight =>
    have hnext := (List.getElem?_eq_some_iff.mp hstep).1
    simp only [weight, List.map_append, List.map_singleton, List.sum_append, List.sum_singleton,
      bodyIn_eq hcaller]
    omega

/-- Once it leads to no unvisited operation, a call may be given up. -/
theorem skip (htracks : Tracks routines
      ⟨root, marks, outer ++ [⟨operation, next⟩], order, errors⟩ cycles)
    (hcaller : routines[operation]? = some caller) (hstep : caller.body[next]? = some step)
    (haction : step.action = .call callee) {after : List ProgramError} {more : List CallCycle}
    (hmore : after = more.reverse.map (cycleError routines)) :
    Tracks routines ⟨root, marks, outer ++ [⟨operation, next + 1⟩], order, after⟩ more := by
  obtain ⟨pending, hbefore, hafter⟩ := framesOf_call hcaller hstep haction outer
  have hwalking := htracks.walking
  rw [hbefore] at hwalking
  refine ⟨?_, htracks.size, fun number => ?_, htracks.passed, hmore⟩
  · rw [hafter]
    exact hwalking.skip
  · rw [htracks.active]
    simp

theorem enter (htracks : Tracks routines
      ⟨root, marks, outer ++ [⟨operation, next⟩], order, errors⟩ cycles)
    (hcaller : routines[operation]? = some caller) (hstep : caller.body[next]? = some step)
    (haction : step.action = .call callee) (hmark : marks[callee]? = some .unvisited) :
    Advances routines ⟨root, marks, outer ++ [⟨operation, next⟩], order, errors⟩ cycles := by
  obtain ⟨pending, hbefore, hframes⟩ := framesOf_call hcaller hstep haction outer
  have hskipped := htracks.skip hcaller hstep haction htracks.errors
  have hwalking := htracks.walking
  rw [hbefore] at hwalking
  have hmem := mem_unvisitedIn.mpr hmark
  have hbound := (Array.getElem?_eq_some_iff.mp hmark).1
  have hafter : unvisitedIn (marks.set callee .active hbound) = (unvisitedIn marks).erase callee :=
    unvisitedIn_set (by decide) hbound
  refine ⟨⟨root, marks.set callee .active hbound,
    outer ++ [⟨operation, next + 1⟩] ++ [⟨callee, 0⟩], order, errors⟩, cycles, ?turn,
    ⟨?walking, ?size, ?active, ?passed, htracks.errors⟩, ?onward, ?weight⟩
  case turn =>
    rw [moves_call hcaller hstep haction]
    simp only [follow?, hmark, Option.bind_eq_bind, Option.bind_some, enter?_eq hbound]
  case walking =>
    rw [hafter, framesOf_concat, Place.frame_zero, hframes]
    exact hwalking.enter hmem
  case size => rw [Array.size_set, htracks.size]
  case active =>
    intro number
    rw [active_set_active, hskipped.active]
    simp [or_assoc]
  case passed =>
    intro number hnumber
    rw [hafter] at hnumber
    exact htracks.passed number (List.mem_of_mem_erase hnumber)
  case onward =>
    simp only [onward, hafter, framesOf_concat routines (outer ++ [⟨operation, next + 1⟩]),
      Place.frame_zero, hframes, hbefore]
    rw [walk, if_pos hmem]
  case weight =>
    have hless : weight routines ⟨root, marks, outer ++ [⟨operation, next + 1⟩], order, errors⟩ <
        weight routines ⟨root, marks, outer ++ [⟨operation, next⟩], order, errors⟩ :=
      weight_step hcaller hstep
    have hsum := ((List.perm_cons_erase hmem).map
      fun number => (bodyIn routines number).length + 1).sum_nat
    simp only [List.map_cons, List.sum_cons] at hsum
    simp only [weight, hafter, List.map_append, List.map_singleton, List.sum_append,
      List.sum_singleton] at hless ⊢
    omega

theorem report (htracks : Tracks routines
      ⟨root, marks, outer ++ [⟨operation, next⟩], order, errors⟩ cycles)
    (hcaller : routines[operation]? = some caller) (hstep : caller.body[next]? = some step)
    (haction : step.action = .call callee) (hmark : marks[callee]? = some .active) :
    Advances routines ⟨root, marks, outer ++ [⟨operation, next⟩], order, errors⟩ cycles := by
  obtain ⟨pending, hbefore, hframes⟩ := framesOf_call hcaller hstep haction outer
  have hskipped := htracks.skip hcaller hstep haction htracks.errors
  have hactive := (hskipped.active callee).mp hmark
  have herror := closingError?_eq rfl hcaller hskipped.nodup hskipped.lt_size hactive step.line
  generalize hcycle : CallCycle.mk
    (pathFrom callee (framesOf routines (outer ++ [⟨operation, next + 1⟩]))) step.line = cycle
    at herror
  refine ⟨⟨root, marks, outer ++ [⟨operation, next + 1⟩], order,
    errors ++ [cycleError routines cycle]⟩, cycle :: cycles, ?turn,
    htracks.skip hcaller hstep haction ?errors, ?onward, weight_step hcaller hstep⟩
  case turn =>
    rw [moves_call hcaller hstep haction]
    simp only [follow?, hmark, Option.bind_eq_bind, Option.bind_some, herror, Option.pure_def]
  case errors =>
    rw [List.reverse_cons, List.map_append, List.map_singleton]
    exact congrArg (· ++ [cycleError routines cycle]) htracks.errors
  case onward =>
    have hvisited : callee ∉ unvisitedIn marks := by
      rw [mem_unvisitedIn, hmark]
      nofun
    have hactive' : callee ∈
        ((⟨operation, pending⟩ :: framesOf routines outer : List Frame)).map (·.operation) := by
      rw [← hframes, framesOf_operations]
      exact List.mem_reverse.mpr hactive
    rw [hframes] at hcycle
    simp only [onward, hframes, hbefore, ← hcycle]
    rw [walk, if_neg hvisited, if_pos hactive']

theorem leaveBehind (htracks : Tracks routines
      ⟨root, marks, outer ++ [⟨operation, next⟩], order, errors⟩ cycles)
    (hcaller : routines[operation]? = some caller) (hstep : caller.body[next]? = some step)
    (haction : step.action = .call callee) (hmark : marks[callee]? = some .done) :
    Advances routines ⟨root, marks, outer ++ [⟨operation, next⟩], order, errors⟩ cycles := by
  obtain ⟨pending, hbefore, hframes⟩ := framesOf_call hcaller hstep haction outer
  have hskipped := htracks.skip hcaller hstep haction htracks.errors
  refine ⟨_, cycles, ?turn, hskipped, ?onward, weight_step hcaller hstep⟩
  case turn =>
    rw [moves_call hcaller hstep haction]
    simp only [follow?, hmark, Option.bind_eq_bind, Option.bind_some]
  case onward =>
    have hvisited : callee ∉ unvisitedIn marks := by
      rw [mem_unvisitedIn, hmark]
      nofun
    have hinactive : callee ∉
        ((⟨operation, pending⟩ :: framesOf routines outer : List Frame)).map (·.operation) := by
      rw [← hframes, framesOf_operations, List.mem_reverse, ← hskipped.active, hmark]
      nofun
    simp only [onward, hframes, hbefore]
    rw [walk, if_neg hvisited, if_neg hinactive]

/-- The machine has ended with what `walk` finds, or moves on towards it. -/
theorem ends_or_advances
    (hclosed : ∀ routine ∈ routines, ∀ callee ∈ routine.callees, callee < routines.size)
    (htracks : Tracks routines marked cycles) :
    marked.result? routines = some ((marked.onward routines cycles).order,
        (marked.onward routines cycles).cycles.map (cycleError routines)) ∨
      marked.result? routines = none ∧ Advances routines marked cycles := by
  obtain ⟨root, marks, places, order, errors⟩ := marked
  cases hplaces : places.getLast? with
  | none =>
      obtain rfl := List.getLast?_eq_none_iff.mp hplaces
      by_cases hroot : root < routines.size
      · refine Or.inr ⟨if_neg (by simp [hroot]), ?_⟩
        have hbound : root < marks.size := htracks.size.symm ▸ hroot
        have hmark : marks[root]? = some marks[root] := Array.getElem?_eq_getElem hbound
        by_cases hunvisited : marks[root] = .unvisited
        · exact htracks.enterRoot hroot (hunvisited ▸ hmark)
        · exact htracks.passRoot hroot hmark hunvisited
      · have hnone : unvisitedIn marks = [] := by
          apply List.eq_nil_iff_forall_not_mem.mpr
          intro number hnumber
          have hle : root ≤ number := htracks.passed number hnumber
          have hlt := htracks.mark_lt (mem_unvisitedIn.mp hnumber)
          omega
        left
        have hwalk : onward routines ⟨root, marks, [], order, errors⟩ cycles =
            ⟨order, cycles.reverse⟩ := by
          simp [onward, hnone, framesOf, walk]
        rw [hwalk, result?, if_pos ⟨rfl, Nat.le_of_not_lt hroot⟩]
        exact congrArg (fun errors => some (order, errors)) htracks.errors
  | some place =>
      obtain ⟨outer, rfl⟩ := List.getLast?_eq_some_iff.mp hplaces
      obtain ⟨operation, next⟩ := place
      refine Or.inr ⟨if_neg (by simp), ?_⟩
      have hbound := htracks.lt_size ⟨operation, next⟩ (by simp)
      have hcaller : routines[operation]? = some routines[operation] :=
        Array.getElem?_eq_getElem hbound
      cases hstep : routines[operation].body[next]? with
      | none => exact htracks.leave hcaller hstep
      | some step =>
          cases haction : step.action with
          | perform instruction => exact htracks.perform hcaller hstep haction
          | call callee =>
              have hcallee : callee < marks.size := by
                rw [htracks.size]
                apply hclosed _ (Array.mem_of_getElem? hcaller)
                exact List.mem_filterMap.mpr
                  ⟨step, List.mem_of_getElem? hstep, by rw [haction]; rfl⟩
              have hmark : marks[callee]? = some marks[callee] :=
                Array.getElem?_eq_getElem hcallee
              cases hcase : marks[callee] with
              | unvisited => exact htracks.enter hcaller hstep haction (hcase ▸ hmark)
              | active => exact htracks.report hcaller hstep haction (hcase ▸ hmark)
              | done => exact htracks.leaveBehind hcaller hstep haction (hcase ▸ hmark)

end Tracks

/-- With a result there is no move. -/
theorem turn?_eq_none {found : List Nat × List ProgramError}
    (hended : marked.result? routines = some found) : marked.turn? routines = none := by
  unfold result? at hended
  split at hended
  · rename_i hlast
    simp [turn?, nextRoot?, hlast.1, hlast.2]
  · nomatch hended

/-- The machine always ends, and it ends with the order and the errors of `callOrder`. -/
theorem returns
    (hclosed : ∀ routine ∈ routines, ∀ callee ∈ routine.callees, callee < routines.size) :
    Returns (Moves routines) (result? routines) (start routines)
      ((callOrder routines.size (callsIn routines)).order,
        (callOrder routines.size (callsIn routines)).cycles.map (cycleError routines)) := by
  have honward : (start routines).onward routines [] =
      callOrder routines.size (callsIn routines) := by
    simp only [onward, start_unvisitedIn]
    rfl
  refine Returns.of_weight Nat.lt_wfRel.wf (weight routines)
    (fun marked next (hcourse : OnCourse routines marked) hmove => ?_)
    (fun marked hcourse => ?_) ⟨[], Tracks.initial routines, honward⟩
  · obtain ⟨cycles, htracks, honward⟩ := hcourse
    rcases htracks.ends_or_advances hclosed with hended | ⟨-, hadvances⟩
    · nomatch (turn?_eq_none hended).symm.trans hmove
    · obtain ⟨found, more, hfound, hkept, hsame, hless⟩ := hadvances
      obtain rfl := Option.some.inj (hmove.symm.trans hfound)
      exact ⟨⟨more, hkept, hsame.trans honward⟩, hless⟩
  · obtain ⟨cycles, htracks, honward⟩ := hcourse
    rw [← honward]
    rcases htracks.ends_or_advances hclosed with hended | ⟨hnone, next, more, hmove, -⟩
    · exact Or.inl hended
    · exact Or.inr ⟨hnone, next, hmove⟩

end MarkedWalk

/-! ### What the order and the errors tell -/

/-- What a walk over the calls of operations owes: every operation once; errors exactly when calls
form a cycle, and otherwise every operation behind those that it calls; errors that tell of cycles,
at least one of them among any operations that call each other in circles. -/
structure IsCallOrder (routines : Array Routine) (order : List Nat) (errors : List ProgramError) :
    Prop where
  once : order.Perm (List.range routines.size)
  acyclic_iff : errors = [] ↔ ∀ number, ¬ Relation.TransGen (Calls routines) number number
  calleesFirst : errors = [] → ∀ before caller after, order = before ++ caller :: after →
    ∀ callee, Calls routines caller callee → callee ∈ before
  tells : ∀ error ∈ errors, ∃ first others, TellsCycle routines error first others
  everyGroup : ∀ caller callee, Calls routines caller callee →
    Relation.ReflTransGen (Calls routines) callee caller →
    ∃ error ∈ errors, ∃ first others, TellsCycle routines error first others ∧
      ∀ n ∈ first :: others, Relation.ReflTransGen (Calls routines) caller n ∧
        Relation.ReflTransGen (Calls routines) n caller

theorem Listed.of_append {calls : Nat → List CallSite} {front rest : List Nat}
    (hlisted : Listed calls cycles (front ++ rest)) : Listed calls cycles rest := by
  induction front with
  | nil => exact hlisted
  | cons first others ih => exact ih hlisted.2

/-- Among listed operations that each call one of themselves, the one listed first has such a call
reported. -/
theorem Listed.exists_reported {calls : Nat → List CallSite} {group : Nat → Prop}
    (hlisted : Listed calls cycles order)
    (hcalls : ∀ n, group n → ∃ next, CallsTo calls n next ∧ group next)
    (hsome : ∃ n ∈ order, group n) :
    ∃ caller callee, group caller ∧ group callee ∧ Reported cycles caller callee := by
  induction order with
  | nil => simp at hsome
  | cons operation earlier ih =>
      by_cases hearlier : ∃ n ∈ earlier, group n
      · exact ih hlisted.2 hearlier
      · obtain ⟨n, hn, hgroup⟩ := hsome
        rcases List.mem_cons.mp hn with rfl | hn
        · obtain ⟨next, ⟨site, hsite, rfl⟩, hnext⟩ := hcalls n hgroup
          rcases hlisted.1 site hsite with hmem | hreported
          · exact absurd ⟨_, hmem, hnext⟩ hearlier
          · exact ⟨n, site.callee, hgroup, hnext, hreported⟩
        · exact absurd ⟨n, hn, hgroup⟩ hearlier

theorem callOrder_isCallOrder
    (hclosed : ∀ routine ∈ routines, ∀ callee ∈ routine.callees, callee < routines.size) :
    IsCallOrder routines (callOrder routines.size (callsIn routines)).order
      ((callOrder routines.size (callsIn routines)).cycles.map (cycleError routines)) := by
  have hperm := callOrder_perm (callsIn routines) routines.size
  have hcloses := callOrder_cycles_close (callsIn routines) routines.size
  have hlisted : Listed (callsIn routines) (callOrder routines.size (callsIn routines)).cycles
      (callOrder routines.size (callsIn routines)).order.reverse :=
    callOrder_listed (callee_lt_of_mem_callsIn hclosed)
  refine ⟨hperm, ?acyclic_iff, ?calleesFirst, ?tells, ?everyGroup⟩
  case acyclic_iff =>
    rw [List.map_eq_nil_iff, callOrder_callsIn_cycles_eq_nil_iff hclosed]
  case calleesFirst =>
    intro hnone before caller after horder callee hcalls
    rw [List.map_eq_nil_iff.mp hnone, horder, List.reverse_append, List.reverse_cons,
      List.append_assoc] at hlisted
    have hbefore := hlisted.of_append.callee_mem_earlier (callsTo_callsIn_iff.mpr hcalls)
    exact List.mem_reverse.mp hbefore
  case tells =>
    intro error herror
    obtain ⟨cycle, hcycle, rfl⟩ := List.mem_map.mp herror
    obtain ⟨first, others, -, htells⟩ := (hcloses cycle hcycle).tellsCycle
    exact ⟨first, others, htells⟩
  case everyGroup =>
    intro caller callee hcalls hback
    have hgroup : ∀ n, Relation.ReflTransGen (Calls routines) caller n ∧
        Relation.ReflTransGen (Calls routines) n caller →
        ∃ next, CallsTo (callsIn routines) n next ∧
          Relation.ReflTransGen (Calls routines) caller next ∧
            Relation.ReflTransGen (Calls routines) next caller := by
      rintro n ⟨hreached, hreturns⟩
      -- from `n` back to the caller, around its cycle, and to `n` again is at least one call
      have hround : Relation.TransGen (Calls routines) n n :=
        (Relation.TransGen.tail' hreturns hcalls).trans_left (hback.trans hreached)
      obtain ⟨next, hnext, hrest⟩ := Relation.TransGen.head'_iff.mp hround
      exact ⟨next, callsTo_callsIn_iff.mpr hnext, hreached.tail hnext, hrest.trans hreturns⟩
    have hmem : caller ∈ (callOrder routines.size (callsIn routines)).order.reverse := by
      rw [List.mem_reverse, hperm.mem_iff]
      exact List.mem_range.mpr hcalls.caller_lt
    obtain ⟨last, first, hlast, hfirst, cycle, hcycle, hhead, hend⟩ :=
      hlisted.exists_reported hgroup ⟨caller, hmem, .refl, .refl⟩
    obtain ⟨start, others, hpath, htells⟩ := (hcloses cycle hcycle).tellsCycle
    rw [hpath, List.head?_cons, Option.some.injEq] at hhead
    subst hhead
    refine ⟨_, List.mem_map_of_mem hcycle, start, others, htells, fun n hn => ?_⟩
    obtain ⟨hreached, hreturns⟩ := htells.reaches n hn
    exact ⟨hfirst.1.trans hreached, hreturns.trans hfirst.2⟩

/-- Over the calls of any operations the machine always ends, as `callOrder` does, with an order and
errors as a depth-first walk owes them. -/
theorem markedWalk_returns_isCallOrder (routines : Array Routine)
    (hclosed : ∀ routine ∈ routines, ∀ callee ∈ routine.callees, callee < routines.size) :
    ∃ order errors,
      Returns (MarkedWalk.Moves routines) (MarkedWalk.result? routines) (MarkedWalk.start routines)
        (order, errors) ∧
      IsCallOrder routines order errors ∧
      order = (callOrder routines.size (callsIn routines)).order ∧
      errors = (callOrder routines.size (callsIn routines)).cycles.map (cycleError routines) :=
  ⟨_, _, MarkedWalk.returns hclosed, callOrder_isCallOrder hclosed, rfl, rfl⟩

/-- Two operations that call each other, and one that calls the first of them. -/
def mutualRoutines : Array Routine :=
  #[⟨⟨none, "A"⟩, false, ⟨"main.qb", 1⟩, [⟨.perform (.reset 0), 1⟩, ⟨.call 1, 2⟩]⟩,
    ⟨⟨none, "B"⟩, false, ⟨"main.qb", 3⟩, [⟨.call 0, 4⟩]⟩,
    ⟨⟨none, "C"⟩, false, ⟨"main.qb", 5⟩, [⟨.call 0, 6⟩]⟩]

theorem markedWalk_returns_mutualRoutines :
    (∀ routine ∈ mutualRoutines, ∀ callee ∈ routine.callees, callee < mutualRoutines.size) ∧
      Returns (MarkedWalk.Moves mutualRoutines) (MarkedWalk.result? mutualRoutines)
        (MarkedWalk.start mutualRoutines)
        ([1, 0, 2], [.located ⟨"main.qb", 4⟩
          (.callCycle [⟨none, "A"⟩, ⟨none, "B"⟩, ⟨none, "A"⟩])]) := by
  have hclosed : ∀ routine ∈ mutualRoutines, ∀ callee ∈ routine.callees,
      callee < mutualRoutines.size := by
    decide
  have hfound : callOrder mutualRoutines.size (callsIn mutualRoutines) =
      ⟨[1, 0, 2], [⟨[0, 1], 4⟩]⟩ := by
    cbv
  obtain ⟨order, errors, hreturns, -, rfl, rfl⟩ :=
    markedWalk_returns_isCallOrder mutualRoutines hclosed
  rw [hfound] at hreturns
  exact ⟨hclosed, hreturns⟩

end GateBench.Program
