import GateBench.Proofs.Drawing

/-!
How many leaves a diagram has.  Every inlined step is drawn as a leaf.  A call is drawn as a box
around the boxes of the called operation, so it is a leaf itself if that has no statements; these
leaves are what a diagram has beyond the inlined steps.
-/

namespace GateBench.Program

open GateBench.Message

/-- `Follows routines body followed`: the operations that are called while a body is inlined, one
for each call that is followed, in the order in which they are. -/
inductive Follows (routines : Array Routine) : List Step → List Nat → Prop
  | done : Follows routines [] []
  | perform {instruction : Instruction} {line : Nat} {rest : List Step} {followed : List Nat} :
      Follows routines rest followed →
      Follows routines (⟨.perform instruction, line⟩ :: rest) followed
  | call {callee line : Nat} {routine : Routine} {rest : List Step} {below followed : List Nat} :
      routines[callee]? = some routine →
      Follows routines routine.body below →
      Follows routines rest followed →
      Follows routines (⟨.call callee, line⟩ :: rest) (callee :: (below ++ followed))

/-- The operation of a number has no statements. -/
def isIdle (routines : Array Routine) (number : Nat) : Bool :=
  routines[number]?.any (·.body.isEmpty)

variable {program : Program} {source : String} {body : List Step} {boxes : List Box}
  {counts after : ResultCounts} {steps : List FlatStep} {number calls : Nat}
  {routines : Array Routine} {routine : Routine} {operation : Operation} {followed : List Nat}

theorem isIdle_eq (hroutine : routines[number]? = some routine) :
    isIdle routines number = routine.body.isEmpty := by
  simp [isIdle, hroutine]

/-! ### Followed calls -/

/-- Following the calls of a body reaches every operation that chains of calls lead to from it. -/
theorem Follows.mem_iff (hfollows : Follows routines body followed) {reached : Nat} :
    reached ∈ followed ↔
      ∃ callee ∈ calleesOf body, Relation.ReflTransGen (Calls routines) callee reached := by
  induction hfollows with
  | done => simp
  | perform _ ih => simpa using ih
  | @call callee _ routine rest below followed hroutine _ _ ihbelow ihrest =>
      have hcallee : Relation.ReflTransGen (Calls routines) callee reached ↔
          reached = callee ∨ reached ∈ below := by
        rw [ihbelow, Relation.ReflTransGen.cases_head_iff, eq_comm]
        simp only [calls_iff_mem hroutine]
      rw [calleesOf_call, List.exists_mem_cons_iff, hcallee, ← ihrest, List.mem_cons,
        List.mem_append, or_assoc]

theorem Follows.mem_iff_reaches (hroutine : routines[number]? = some routine)
    (hfollows : Follows routines routine.body followed) {reached : Nat} :
    reached ∈ followed ↔ Relation.TransGen (Calls routines) number reached := by
  rw [hfollows.mem_iff, Relation.TransGen.head'_iff]
  simp only [calls_iff_mem hroutine]

/-! ### Leaves of a body -/

theorem instructionBox_leaves (counts : ResultCounts) (instruction : Instruction) :
    (instructionBox counts instruction).1.leaves = 1 := by
  cases instruction <;> rfl

theorem callBox_leaves (called : Operation) (children : List Box) :
    (callBox called children).leaves =
      Box.leavesOfAll children + if children = [] then 1 else 0 := by
  cases children with
  | nil => rfl
  | cons first others => simp [callBox, Box.leaves, Box.leavesOfAll]

theorem Draws.boxes_eq_nil_iff (hdraws : Draws program body counts boxes after) :
    boxes = [] ↔ body = [] := by
  cases hdraws <;> simp

/-- A body is drawn with a leaf for every inlined step and for every followed call of an operation
that has no statements. -/
theorem Draws.leaves_eq (hdraws : Draws program body counts boxes after)
    (hinlines : Inlines program.routines source body steps calls) :
    ∃ followed, Follows program.routines body followed ∧
      Box.leavesOfAll boxes = steps.length + followed.countP (isIdle program.routines) := by
  induction hdraws generalizing source steps calls with
  | done =>
      cases hinlines
      exact ⟨[], .done, rfl⟩
  | @perform _ _ _ _ counts _ _ ih =>
      cases hinlines with
      | perform hrest =>
          obtain ⟨followed, hfollows, hleaves⟩ := ih hrest
          refine ⟨followed, .perform hfollows, ?_⟩
          rw [Box.leavesOfAll, instructionBox_leaves, hleaves, List.length_cons]
          omega
  | @call callee _ called _ children _ _ _ _ hcalled hchildren _ ihchildren ihrest =>
      have hroutine := routine_of_operation hcalled
      obtain ⟨_, _, _, _, rfl, hbelow, hrest⟩ := hinlines.of_call hcalled
      obtain ⟨below, hfollowsBelow, hleavesBelow⟩ := ihchildren hbelow
      obtain ⟨followed, hfollows, hleaves⟩ := ihrest hrest
      refine ⟨callee :: (below ++ followed), .call hroutine hfollowsBelow hfollows, ?_⟩
      rw [Box.leavesOfAll, callBox_leaves, hleavesBelow, hleaves, List.countP_cons,
        List.countP_append, isIdle_eq hroutine, List.length_append]
      simp only [hchildren.boxes_eq_nil_iff, List.isEmpty_iff]
      omega

/-! ### Leaves of a diagram -/

/-- No followed call is one of an operation without statements exactly when no chain of calls leads
to such an operation. -/
theorem Follows.countP_isIdle_eq_zero_iff (hmeasured : Measured program)
    (hoperation : program.operations[number]? = some operation)
    (hfollows : Follows program.routines operation.body followed) :
    followed.countP (isIdle program.routines) = 0 ↔
      ∀ callee called, Relation.TransGen (Calls program.routines) number callee →
        program.operations[callee]? = some called → called.body ≠ [] := by
  have hroutine := routine_of_operation hoperation
  have hidle : ∀ {callee called}, program.operations[callee]? = some called →
      (isIdle program.routines callee = true ↔ called.body = []) := fun hcalled => by
    rw [isIdle_eq (routine_of_operation hcalled), List.isEmpty_iff]
  simp only [List.countP_eq_zero, hfollows.mem_iff_reaches hroutine]
  constructor
  · intro hnone callee called hreaches hcalled
    exact mt (hidle hcalled).mpr (hnone callee hreaches)
  · intro hnone callee hreaches
    obtain ⟨caller, -, hcalls⟩ := Relation.TransGen.tail'_iff.mp hreaches
    have hcalled := Array.getElem?_eq_getElem (hmeasured.callee_lt hcalls)
    exact mt (hidle hcalled).mp (hnone callee _ hreaches hcalled)

/-- A diagram has a leaf for every inlined step, and one more for every call of an operation without
statements that inlining follows; so it has as many leaves as there are inlined steps exactly when
no operation without statements is called, directly or through others. -/
theorem diagram_leaves {sources : List Source} {limits : Limits}
    (haccepted : compile sources limits = .ok program)
    (hoperation : program.operations[number]? = some operation) :
    (∃ followed, Follows program.routines operation.body followed ∧
      (program.diagram number).leaves =
        (program.flatten number).length + followed.countP (isIdle program.routines)) ∧
    ((program.diagram number).leaves = (program.flatten number).length ↔
      ∀ callee called, Relation.TransGen (Calls program.routines) number callee →
        program.operations[callee]? = some called → called.body ≠ []) := by
  have hmeasured := compile_measured haccepted
  obtain ⟨after, calls, hdraws, hinlines, -⟩ := hmeasured.diagram_draws_inlined hoperation
  obtain ⟨followed, hfollows, hleaves⟩ := hdraws.leaves_eq hinlines
  refine ⟨⟨followed, hfollows, hleaves⟩, ?_⟩
  rw [← hfollows.countP_isIdle_eq_zero_iff hmeasured hoperation, Diagram.leaves, hleaves]
  exact Nat.add_eq_left

/-- An operation that calls one without statements through one that only calls. -/
def idleCall : Source :=
  ⟨"idle.qb", "operation A { call B; x 0; } operation B { call C; } operation C { }"⟩

/-- What it parses into. -/
def idleCallFile : Syntax.SourceFile :=
  ⟨"idle.qb", none, [
    ⟨"A", false, 1, [⟨.call ⟨none, "B"⟩, 1⟩, ⟨.gate ⟨"x", [], [0]⟩, 1⟩]⟩,
    ⟨"B", false, 1, [⟨.call ⟨none, "C"⟩, 1⟩]⟩, ⟨"C", false, 1, []⟩]⟩

/-- What it compiles to. -/
def idleCallProgram : Program :=
  ⟨#[
    ⟨⟨⟨none, "A"⟩, false, ⟨"idle.qb", 1⟩, [⟨.call 1, 1⟩, ⟨.perform (.gate .x [0]), 1⟩]⟩,
      ⟨[0], 3, 2⟩⟩,
    ⟨⟨⟨none, "B"⟩, false, ⟨"idle.qb", 1⟩, [⟨.call 2, 1⟩]⟩, ⟨[], 1, 1⟩⟩,
    ⟨⟨⟨none, "C"⟩, false, ⟨"idle.qb", 1⟩, []⟩, ⟨[], 0, 0⟩⟩]⟩

theorem compile_idleCall : compile [idleCall] {} = .ok idleCallProgram := by
  have hparse : parse idleCall = .ok idleCallFile := by
    decide +kernel
  have hresolve : resolve [idleCallFile] =
      .ok (idleCallProgram.operations.toList.map (·.toRoutine)) := by
    decide +kernel
  have hfile : compileFiles [idleCallFile] {} = .ok idleCallProgram := by
    rw [compileFiles, hresolve]
    cbv
  exact compile_ok_iff_compileFiles.mpr ⟨_, .cons hparse .nil, hfile⟩

/-- The call of an operation without statements is one leaf, the step another. -/
theorem diagram_leaves_idleCall :
    compile [idleCall] {} = .ok idleCallProgram ∧
      idleCallProgram.operations[0]? = some idleCallProgram.operations[0] ∧
      (idleCallProgram.flatten 0).length = 1 ∧ (idleCallProgram.diagram 0).leaves = 2 ∧
      ∃ followed, Follows idleCallProgram.routines idleCallProgram.operations[0].body followed ∧
        (idleCallProgram.diagram 0).leaves =
          (idleCallProgram.flatten 0).length + followed.countP (isIdle idleCallProgram.routines) := by
  have hoperation : idleCallProgram.operations[0]? = some idleCallProgram.operations[0] := rfl
  refine ⟨compile_idleCall, hoperation, by decide, by decide, ?_⟩
  exact (diagram_leaves compile_idleCall hoperation).1

/-- A diagram may have more leaves than there are inlined steps. -/
theorem idleCall_leaves_ne :
    compile [idleCall] {} = .ok idleCallProgram ∧ 0 < idleCallProgram.operations.size ∧
      (idleCallProgram.diagram 0).leaves ≠ (idleCallProgram.flatten 0).length :=
  ⟨compile_idleCall, by decide, by decide⟩

end GateBench.Program
