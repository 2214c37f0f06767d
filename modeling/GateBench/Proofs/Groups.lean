import GateBench.Proofs.BaseRule
import GateBench.Proofs.Drawing
import Mathlib.Data.List.Forall2

/-!
The boxes of calls.  The targets of such a box come from the figures of the called operation, its
contents from drawing that operation's body; the qubits of both are those of the inlined steps, so
the targets are the qubits that the contents mention, however deep they nest.
-/

namespace GateBench.Message

mutual

/-- A box and all boxes below it, each in front of what it holds. -/
def Box.preorder : Box → List Box
  | ⟨gate, argument, isControlled, isMeasurement, controls, targets, children⟩ =>
    ⟨gate, argument, isControlled, isMeasurement, controls, targets, children⟩ ::
      Box.preorderOfAll children

/-- The boxes of a list and all boxes below them, each in front of what it holds. -/
def Box.preorderOfAll : List Box → List Box
  | [] => []
  | box :: others => box.preorder ++ Box.preorderOfAll others

end

theorem Box.preorder_eq (box : Box) : box.preorder = box :: Box.preorderOfAll box.children := by
  cases box
  rfl

/-- One of the registers of a box belongs to a qubit. -/
def Box.Mentions (box : Box) (qubit : Nat) : Prop :=
  ∃ register ∈ box.controls ++ box.targets, register.qubit = qubit

theorem Box.mem_preorderOfAll_cons {box inner : Box} {others : List Box} :
    inner ∈ Box.preorderOfAll (box :: others) ↔
      inner = box ∨ inner ∈ Box.preorderOfAll box.children ∨ inner ∈ Box.preorderOfAll others := by
  rw [Box.preorderOfAll, Box.preorder_eq, List.cons_append, List.mem_cons, List.mem_append]

theorem Box.exists_preorderOfAll_cons {box : Box} {others : List Box} {holds : Box → Prop} :
    (∃ inner ∈ Box.preorderOfAll (box :: others), holds inner) ↔
      holds box ∨ (∃ inner ∈ Box.preorderOfAll box.children, holds inner) ∨
        ∃ inner ∈ Box.preorderOfAll others, holds inner := by
  simp only [Box.mem_preorderOfAll_cons, or_and_right, exists_or, exists_eq_left]

end GateBench.Message

namespace GateBench.Program

open GateBench.Message

/-- The box that a statement is drawn as: that of its instruction, or one around the boxes of the
operation that it calls. -/
def IsDrawnAs (program : Program) (step : Step) (box : Box) : Prop :=
  match step.action with
  | .perform instruction => ∃ counts, box = (instructionBox counts instruction).1
  | .call callee => ∃ called, program.operations[callee]? = some called ∧
      box = callBox called box.children

/-- `Groups program body boxes called group`: among the boxes of a body, or anywhere below them,
`group` stands for a statement that calls `called`. -/
inductive Groups (program : Program) : List Step → List Box → Operation → Box → Prop
  | here {body : List Step} {boxes : List Box} {callee line : Nat} {called : Operation}
      {group : Box} :
      (⟨.call callee, line⟩, group) ∈ body.zip boxes →
      program.operations[callee]? = some called →
      Groups program body boxes called group
  | within {body : List Step} {boxes : List Box} {callee line : Nat} {caller called : Operation}
      {outer group : Box} :
      (⟨.call callee, line⟩, outer) ∈ body.zip boxes →
      program.operations[callee]? = some caller →
      Groups program caller.body outer.children called group →
      Groups program body boxes called group

variable {program : Program} {source : String} {body : List Step} {boxes children : List Box}
  {counts after : ResultCounts} {steps : List FlatStep} {number callee line calls qubit : Nat}
  {operation called : Operation} {group : Box} {instruction : Instruction}

/-! ### Qubits of boxes -/

theorem instructionBox_mentions_iff :
    (instructionBox counts instruction).1.Mentions qubit ↔ qubit ∈ instruction.qubits := by
  cases instruction with
  | gate kind qubits =>
      have hsplit : (gateBox kind qubits).controls ++ (gateBox kind qubits).targets =
          qubits.map .ofQubit := by
        simp only [gateBox, ← List.map_append, List.take_append_drop]
      simp [instructionBox, Box.Mentions, hsplit, Instruction.qubits, Register.ofQubit]
  | measure other =>
      simp [instructionBox, Box.Mentions, measureBox, Instruction.qubits, Register.ofQubit,
        Register.ofResult, eq_comm]
  | reset other =>
      simp [instructionBox, Box.Mentions, Box.plain, Instruction.qubits, Register.ofQubit, eq_comm]

theorem instructionBox_children :
    (instructionBox counts instruction).1.children = [] := by
  cases instruction <;> rfl

theorem callBox_children : (callBox called children).children = children := rfl

theorem callBox_mentions_iff :
    (callBox called children).Mentions qubit ↔ qubit ∈ called.figures.touched := by
  simp [callBox, Box.Mentions, Box.plain, Register.ofQubit]

/-- The figures of a called operation tell the qubits of its inlined body. -/
theorem Measured.touched_iff (hmeasured : Measured program)
    (hcalled : program.operations[callee]? = some called)
    (hinlines : Inlines program.routines called.location.source called.body steps calls) :
    qubit ∈ called.figures.touched ↔ ∃ step ∈ steps, qubit ∈ step.instruction.qubits := by
  obtain ⟨inlined, calls', depth, hinlined, -, htell⟩ := hmeasured.figures callee called hcalled
  obtain ⟨rfl, -⟩ := hinlined.unique ⟨_, routine_of_operation hcalled, hinlines⟩
  exact htell.touched qubit

/-- The boxes of a body and those below them mention the qubits of its inlined steps. -/
theorem Draws.mentions_iff (hdraws : Draws program body counts boxes after)
    (hmeasured : Measured program)
    (hinlines : Inlines program.routines source body steps calls) :
    (∃ box ∈ Box.preorderOfAll boxes, box.Mentions qubit) ↔
      ∃ step ∈ steps, qubit ∈ step.instruction.qubits := by
  induction hdraws generalizing source steps calls with
  | done =>
      cases hinlines
      simp [Box.preorderOfAll]
  | perform _ ih =>
      cases hinlines with
      | perform hrest =>
          rw [Box.exists_preorderOfAll_cons, instructionBox_mentions_iff, instructionBox_children,
            ih hrest, List.exists_mem_cons_iff]
          simp [Box.preorderOfAll]
  | call hcalled _ _ ihchildren ihrest =>
      obtain ⟨_, _, _, _, rfl, hbelow, hrest⟩ := hinlines.of_call hcalled
      rw [Box.exists_preorderOfAll_cons, callBox_mentions_iff, callBox_children,
        hmeasured.touched_iff hcalled hbelow, ihchildren hbelow, ihrest hrest]
      simp only [← or_assoc, or_self, List.mem_append, or_and_right, exists_or]

/-- The targets of a call's box are the qubits that its contents mention. -/
theorem Draws.touched_iff (hdraws : Draws program called.body counts children after)
    (hmeasured : Measured program) (hcalled : program.operations[callee]? = some called) :
    qubit ∈ called.figures.touched ↔ ∃ box ∈ Box.preorderOfAll children, box.Mentions qubit := by
  obtain ⟨calls, hinlines⟩ := hmeasured.flatten_inlines hcalled
  rw [hmeasured.touched_iff hcalled hinlines, hdraws.mentions_iff hmeasured hinlines]

/-! ### Boxes of statements -/

/-- A body is drawn as one box for each statement, in order. -/
theorem Draws.forall₂_isDrawnAs (hdraws : Draws program body counts boxes after) :
    List.Forall₂ (IsDrawnAs program) body boxes := by
  induction hdraws with
  | done => exact .nil
  | perform _ ih => exact .cons ⟨_, rfl⟩ ih
  | call hcalled _ _ _ ih => exact .cons ⟨_, hcalled, rfl⟩ ih

/-- The box of a call holds a drawing of the called operation's body. -/
theorem Draws.of_mem_zip (hdraws : Draws program body counts boxes after)
    (hmem : (⟨.call callee, line⟩, group) ∈ body.zip boxes)
    (hcalled : program.operations[callee]? = some called) :
    ∃ children before between, group = callBox called children ∧
      Draws program called.body before children between := by
  induction hdraws with
  | done => nomatch hmem
  | perform _ ih =>
      rw [List.zip_cons_cons, List.mem_cons] at hmem
      rcases hmem with hfirst | hmem
      · simp at hfirst
      · exact ih hmem
  | call hcalled' hchildren _ _ ih =>
      rw [List.zip_cons_cons, List.mem_cons] at hmem
      rcases hmem with hfirst | hmem
      · simp only [Prod.mk.injEq, Step.mk.injEq, StepAction.call.injEq] at hfirst
        obtain ⟨⟨rfl, rfl⟩, rfl⟩ := hfirst
        obtain rfl := Option.some.inj (hcalled'.symm.trans hcalled)
        exact ⟨_, _, _, rfl, hchildren⟩
      · exact ih hmem

/-- Wherever a box stands for a call, it holds a drawing of the called operation's body. -/
theorem Groups.draws (hgroups : Groups program body boxes called group)
    (hdraws : Draws program body counts boxes after) :
    ∃ (callee : Nat) (children : List Box) (before between : ResultCounts),
      program.operations[callee]? = some called ∧ group = callBox called children ∧
        Draws program called.body before children between := by
  induction hgroups generalizing counts after with
  | here hmem hcalled =>
      obtain ⟨children, before, between, hgroup, hchildren⟩ := hdraws.of_mem_zip hmem hcalled
      exact ⟨_, children, before, between, hcalled, hgroup, hchildren⟩
  | within hmem hcaller _ ih =>
      obtain ⟨children, before, between, rfl, hchildren⟩ := hdraws.of_mem_zip hmem hcaller
      exact ih hchildren

/-- A diagram has one box for each statement of the operation, in order, and so has the box of every
call, wherever it stands, for each statement of the called operation; its targets are the wires of
exactly the qubits that the boxes below it mention, in ascending order. -/
theorem diagram_groups {sources : List Source} {limits : Limits}
    (haccepted : compile sources limits = .ok program)
    (hoperation : program.operations[number]? = some operation) :
    List.Forall₂ (IsDrawnAs program) operation.body (program.diagram number).boxes ∧
      ∀ called group, Groups program operation.body (program.diagram number).boxes called group →
        (∃ qubits : List Nat, group.targets = qubits.map .ofQubit ∧ qubits.Pairwise (· < ·) ∧
          ∀ qubit, qubit ∈ qubits ↔
            ∃ box ∈ Box.preorderOfAll group.children, box.Mentions qubit) ∧
        List.Forall₂ (IsDrawnAs program) called.body group.children := by
  have hmeasured := compile_measured haccepted
  obtain ⟨after, calls, hdraws, -, -⟩ := hmeasured.diagram_draws_inlined hoperation
  refine ⟨hdraws.forall₂_isDrawnAs, fun called group hgroups => ?_⟩
  obtain ⟨callee, children, before, between, hcalled, rfl, hchildren⟩ := hgroups.draws hdraws
  obtain ⟨_, _, _, -, -, htell⟩ := hmeasured.figures callee called hcalled
  exact ⟨⟨called.figures.touched, rfl, htell.ascending,
    fun qubit => hchildren.touched_iff hmeasured hcalled⟩, hchildren.forall₂_isDrawnAs⟩

/-- The box of a call of the second operation, when its qubit was measured so often before. -/
def measuredTwiceGroup (slot : Nat) : Box :=
  callBox measuredTwiceProgram.operations[1] [
    gateBox .controlledX [2, 0],
    callBox measuredTwiceProgram.operations[2] [measureBox 0 slot]]

theorem diagram_measuredTwice :
    measuredTwiceProgram.diagram 0 =
      ⟨[⟨0, 2⟩, ⟨1, 0⟩, ⟨2, 0⟩], [measuredTwiceGroup 0, measuredTwiceGroup 1]⟩ := rfl

/-- The third operation is a group inside the second group, and measures there again; the targets of
that second group are the qubits of both its boxes. -/
theorem diagram_groups_measuredTwice :
    compile [measuredTwice] {} = .ok measuredTwiceProgram ∧
      measuredTwiceProgram.operations[0]? = some measuredTwiceProgram.operations[0] ∧
      Groups measuredTwiceProgram measuredTwiceProgram.operations[0].body
        (measuredTwiceProgram.diagram 0).boxes measuredTwiceProgram.operations[2]
        (callBox measuredTwiceProgram.operations[2] [measureBox 0 1]) ∧
      List.Forall₂ (IsDrawnAs measuredTwiceProgram) [⟨.perform (.measure 0), 3⟩]
        [measureBox 0 1] ∧
      ∃ qubits : List Nat, [.ofQubit 0, .ofQubit 2] = qubits.map Register.ofQubit ∧
        qubits.Pairwise (· < ·) ∧
        ∀ qubit, qubit ∈ qubits ↔
          ∃ box ∈ Box.preorderOfAll (measuredTwiceGroup 1).children, box.Mentions qubit := by
  have hoperation :
      measuredTwiceProgram.operations[0]? = some measuredTwiceProgram.operations[0] := rfl
  have hsecond : measuredTwiceProgram.operations[1]? = some measuredTwiceProgram.operations[1] :=
    rfl
  have hthird : measuredTwiceProgram.operations[2]? = some measuredTwiceProgram.operations[2] :=
    rfl
  have houter : (⟨.call 1, 1⟩, measuredTwiceGroup 1) ∈
      measuredTwiceProgram.operations[0].body.zip (measuredTwiceProgram.diagram 0).boxes :=
    List.mem_cons_of_mem _ List.mem_cons_self
  have hinner : (⟨.call 2, 2⟩, callBox measuredTwiceProgram.operations[2] [measureBox 0 1]) ∈
      measuredTwiceProgram.operations[1].body.zip (measuredTwiceGroup 1).children :=
    List.mem_cons_of_mem _ List.mem_cons_self
  have hnested := Groups.within houter hsecond (.here hinner hthird)
  obtain ⟨-, hgroups⟩ := diagram_groups compile_measuredTwice hoperation
  refine ⟨compile_measuredTwice, hoperation, hnested, (hgroups _ _ hnested).2, ?_⟩
  exact (hgroups _ _ (.here houter hsecond)).1

end GateBench.Program
