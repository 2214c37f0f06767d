import GateBench.Program.Diagram
import GateBench.Proofs.Compilation
import GateBench.Proofs.FrameCodec

/-!
How a diagram is drawn: one box for each statement, and around the boxes of a called operation the
box of its call.  Boxes nest as deep as chains of calls lead to operations that have statements.
-/

namespace GateBench.Program

open GateBench.Message

/-- The box of a call around the boxes of the called operation. -/
def callBox (called : Operation) (children : List Box) : Box :=
  { Box.plain called.name.name (called.figures.touched.map .ofQubit) with children := children }

/-- `Draws program body counts boxes after`: the boxes of a body, and the results of every qubit
before and after it. -/
inductive Draws (program : Program) :
    List Step → ResultCounts → List Box → ResultCounts → Prop
  | done (counts : ResultCounts) : Draws program [] counts [] counts
  | perform {instruction : Instruction} {line : Nat} {rest : List Step} {boxes : List Box}
      {counts after : ResultCounts} :
      Draws program rest (instructionBox counts instruction).2 boxes after →
      Draws program (⟨.perform instruction, line⟩ :: rest) counts
        ((instructionBox counts instruction).1 :: boxes) after
  | call {callee line : Nat} {called : Operation} {rest : List Step} {children boxes : List Box}
      {counts between after : ResultCounts} :
      program.operations[callee]? = some called →
      Draws program called.body counts children between →
      Draws program rest between boxes after →
      Draws program (⟨.call callee, line⟩ :: rest) counts (callBox called children :: boxes) after

/-- `Nests routines body levels`: so many calls, one within the other, lead from a body to one that
has statements. -/
inductive Nests (routines : Array Routine) : List Step → Nat → Prop
  | here {body : List Step} : body ≠ [] → Nests routines body 0
  | within {body : List Step} {callee levels : Nat} {routine : Routine} :
      callee ∈ calleesOf body → routines[callee]? = some routine →
      Nests routines routine.body levels → Nests routines body (levels + 1)

variable {program : Program} {body : List Step} {boxes : List Box} {counts after : ResultCounts}
  {number levels : Nat} {routines : Array Routine} {routine : Routine}

/-! ### Drawing a body -/

/-- A body is drawn once each operation that it calls is. -/
theorem stepBoxes_draws {callBoxes : Nat → ResultCounts → Box × ResultCounts}
    (hcallees : ∀ callee ∈ calleesOf body, ∀ counts, ∃ called children,
      program.operations[callee]? = some called ∧
        callBoxes callee counts = (callBox called children, (callBoxes callee counts).2) ∧
        Draws program called.body counts children (callBoxes callee counts).2)
    (counts : ResultCounts) :
    Draws program body counts (stepBoxes callBoxes body counts).1
      (stepBoxes callBoxes body counts).2 := by
  induction body generalizing counts with
  | nil => exact .done counts
  | cons step rest ih =>
      obtain ⟨action, line⟩ := step
      cases action with
      | perform instruction => exact .perform (ih hcallees _)
      | call callee =>
          simp only [calleesOf_call, List.forall_mem_cons] at hcallees
          obtain ⟨called, children, hcalled, hbox, hdraws⟩ := hcallees.1 counts
          have hrest := ih hcallees.2 (callBoxes callee counts).2
          simp only [stepBoxes]
          rw [hbox]
          exact .call hcalled hdraws hrest

/-- Following calls as deep as the program is long draws each operation. -/
theorem Measured.boxesTo_draws (hmeasured : Measured program)
    (hnumber : number < program.operations.size) (counts : ResultCounts) :
    ∃ operation, program.operations[number]? = some operation ∧
      Draws program operation.body counts
        (program.boxesTo program.operations.size number counts).1
        (program.boxesTo program.operations.size number counts).2 := by
  refine hmeasured.depth_induction (motive := fun depth n => ∀ counts, ∃ operation,
    program.operations[n]? = some operation ∧ Draws program operation.body counts
      (program.boxesTo depth n counts).1 (program.boxesTo depth n counts).2)
    (fun depth n hn hbelow counts => ?_) number hnumber counts
  have hoperation := Array.getElem?_eq_getElem hn
  have hroutine := routine_of_operation hoperation
  refine ⟨_, hoperation, ?_⟩
  simp only [boxesTo, hoperation]
  refine stepBoxes_draws (fun callee hcallee counts => ?_) counts
  obtain ⟨called, hcalled, hdraws⟩ := hbelow callee ((calls_iff_mem hroutine).mpr hcallee) counts
  exact ⟨called, (program.boxesTo depth callee counts).1, hcalled,
    by simp [hcalled, callBox], by simpa [hcalled] using hdraws⟩

/-- The diagram of an operation draws the body that inlining follows, and its wires have the results
counted behind that. -/
theorem Measured.diagram_draws_inlined (hmeasured : Measured program) {operation : Operation}
    (hoperation : program.operations[number]? = some operation) :
    ∃ after calls, Draws program operation.body (Array.replicate operation.figures.qubits 0)
        (program.diagram number).boxes after ∧
      Inlines program.routines operation.location.source operation.body (program.flatten number)
        calls ∧
      (program.diagram number).wires = after.toList.mapIdx Wire.mk := by
  obtain ⟨drawn, hdrawn, hdraws⟩ := hmeasured.boxesTo_draws
    (Array.getElem?_eq_some_iff.mp hoperation).1 (Array.replicate operation.figures.qubits 0)
  obtain rfl := Option.some.inj (hoperation.symm.trans hdrawn)
  obtain ⟨calls, hinlines⟩ := hmeasured.flatten_inlines hoperation
  have hdiagram : program.diagram number =
      ⟨(program.boxesTo program.operations.size number
          (Array.replicate operation.figures.qubits 0)).2.toList.mapIdx Wire.mk,
        (program.boxesTo program.operations.size number
          (Array.replicate operation.figures.qubits 0)).1⟩ := by
    rw [diagram, hoperation]
    rfl
  rw [hdiagram]
  exact ⟨_, calls, hdraws, hinlines, rfl⟩

theorem Measured.diagram_draws (hmeasured : Measured program)
    (hnumber : number < program.operations.size) :
    ∃ operation, program.operations[number]? = some operation ∧
      ∃ after, Draws program operation.body (Array.replicate operation.figures.qubits 0)
        (program.diagram number).boxes after := by
  have hoperation := Array.getElem?_eq_getElem hnumber
  obtain ⟨after, -, hdraws, -⟩ := hmeasured.diagram_draws_inlined hoperation
  exact ⟨_, hoperation, after, hdraws⟩

/-! ### How deep boxes nest -/

theorem instructionBox_nesting (counts : ResultCounts) (instruction : Instruction) :
    (instructionBox counts instruction).1.nesting = 1 := by
  cases instruction <;> rfl

theorem not_nests_nil : ¬ Nests routines [] levels := by
  intro hnests
  cases hnests with
  | here hbody => exact hbody rfl
  | within hcallee => simp at hcallee

theorem nests_succ_iff : Nests routines body (levels + 1) ↔
    ∃ callee ∈ calleesOf body, ∃ routine, routines[callee]? = some routine ∧
      Nests routines routine.body levels := by
  constructor
  · intro hnests
    cases hnests with
    | within hcallee hroutine hnests => exact ⟨_, hcallee, _, hroutine, hnests⟩
  · rintro ⟨callee, hcallee, routine, hroutine, hnests⟩
    exact .within hcallee hroutine hnests

/-- Boxes nest as deep as calls do that lead to statements. -/
theorem Draws.lt_nesting_iff (hdraws : Draws program body counts boxes after) :
    levels < Box.nestingOfAll boxes ↔ Nests program.routines body levels := by
  induction hdraws generalizing levels with
  | done counts => simp [Box.nestingOfAll, not_nests_nil]
  | perform _ ih =>
      rw [Box.nestingOfAll, instructionBox_nesting]
      cases levels with
      | zero => simpa using Nests.here (List.cons_ne_nil _ _)
      | succ levels =>
          rw [nests_succ_iff, calleesOf_perform, ← nests_succ_iff, ← ih]
          omega
  | @call callee line called rest children boxes counts between after hcalled _ _ ihchildren
      ihrest =>
      have hroutine := routine_of_operation hcalled
      rw [Box.nestingOfAll, callBox, Box.nesting]
      cases levels with
      | zero => simpa using Nests.here (List.cons_ne_nil _ _)
      | succ levels =>
          have hnests : Nests program.routines (⟨.call callee, line⟩ :: rest) (levels + 1) ↔
              Nests program.routines called.body levels ∨
                Nests program.routines rest (levels + 1) := by
            simp only [nests_succ_iff, calleesOf_call, List.exists_mem_cons_iff, hroutine,
              Option.some.injEq, exists_eq_left']
          rw [hnests, ← ihchildren, ← ihrest]
          omega

/-- Calls nest so deep exactly when a chain of as many calls leads to an operation that has
statements. -/
theorem nests_iff_chain (hroutine : routines[number]? = some routine) :
    Nests routines routine.body levels ↔
      ∃ chain : List Nat, (number :: chain).IsChain (Calls routines) ∧ chain.length = levels ∧
        ∃ last, routines[(number :: chain).getLast (List.cons_ne_nil _ _)]? = some last ∧
          last.body ≠ [] := by
  induction levels generalizing number routine with
  | zero =>
      constructor
      · intro hnests
        cases hnests with
        | here hbody => exact ⟨[], .singleton number, rfl, routine, hroutine, hbody⟩
      · rintro ⟨chain, -, hlength, last, hlast, hbody⟩
        cases List.length_eq_zero_iff.mp hlength
        cases Option.some.inj (hroutine.symm.trans hlast)
        exact .here hbody
  | succ levels ih =>
      rw [nests_succ_iff]
      constructor
      · rintro ⟨callee, hcallee, called, hcalled, hnests⟩
        obtain ⟨chain, hchain, hlength, hlast⟩ := (ih hcalled).mp hnests
        have hcalls := (calls_iff_mem hroutine).mpr hcallee
        refine ⟨callee :: chain, List.IsChain.cons_cons hcalls hchain, by simp [hlength], ?_⟩
        simpa using hlast
      · rintro ⟨chain, hchain, hlength, hlast⟩
        cases chain with
        | nil => simp at hlength
        | cons callee others =>
            obtain ⟨hcalls, hothers⟩ := List.isChain_cons_cons.mp hchain
            obtain ⟨called, hcalled⟩ : ∃ called, routines[callee]? = some called := by
              cases others with
              | nil =>
                  obtain ⟨last, hlast, -⟩ := hlast
                  exact ⟨last, hlast⟩
              | cons next further =>
                  obtain ⟨called, hcalled, -⟩ := (List.isChain_cons_cons.mp hothers).1
                  exact ⟨called, hcalled⟩
            refine ⟨callee, (calls_iff_mem hroutine).mp hcalls, called, hcalled,
              (ih hcalled).mpr ?_⟩
            exact ⟨others, hothers, by simpa using hlength, by simpa using hlast⟩

end GateBench.Program
