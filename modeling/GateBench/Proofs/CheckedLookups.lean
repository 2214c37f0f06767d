import GateBench.Program.BaseProfile
import GateBench.Proofs.Drawing
import GateBench.Proofs.Operands

/-!
Looking up what a program refers to.  Inlining, the check against the base profile and the drawing
of a diagram look up operations by number, and marks and counts by qubit, in arrays that are as long
as the operation's number of qubits; here every lookup that finds nothing makes them fail, and so
does a chain of calls longer than the program.  On a compiled program none of them fails.
-/

namespace GateBench

/-- Write to a place of an array, if it has that place. -/
def put? {β : Type} (values : Array β) (index : Nat) (value : β) : Option (Array β) :=
  if h : index < values.size then some (values.set index value h) else none

theorem put?_eq {β : Type} {values : Array β} {index : Nat} (hindex : index < values.size)
    (value : β) : put? values index value = some (values.set index value hindex) :=
  dif_pos hindex

namespace Program

open GateBench.Message

/-! ### Checked lookups -/

/-- Inline an operation; it fails at an operation that is missing or lies deeper than `depth`. -/
def inlineTo? (program : Program) : Nat → Nat → Option (List FlatStep)
  | 0, _ => none
  | depth + 1, number => do
    let operation ← program.operations[number]?
    let inlined ← operation.body.mapM fun step =>
      match step.action with
      | .perform instruction => some [⟨instruction, ⟨operation.location.source, step.line⟩⟩]
      | .call callee => program.inlineTo? depth callee
    return inlined.flatten

/-- The instructions of an operation with every call inlined. -/
def flatten? (program : Program) (number : Nat) : Option (List FlatStep) :=
  program.inlineTo? program.operations.size number

/-- What a base target refuses in one instruction, and the marks of the measured qubits behind it;
each qubit is looked up in the marks. -/
def markedViolation? (marks : Array Bool) :
    Instruction → Option (Option BaseViolation × Array Bool)
  | .reset qubit => some (some (.reset qubit), marks)
  | .measure qubit => do
    if ← marks[qubit]? then return (some (.measuredAgain qubit), marks)
    else return (none, ← put? marks qubit true)
  | .gate _ qubits => do
    let found ← qubits.findM? fun qubit => marks[qubit]?
    return (found.map .gateAfterMeasurement, marks)

/-- Collect violations along the instructions, each once; `found` holds them latest first. -/
def collectMarked? (marks : Array Bool) (found : List ProgramError) :
    List FlatStep → Option (List ProgramError)
  | [] => some found.reverse
  | step :: others => do
    let (violation, marks) ← markedViolation? marks step.instruction
    let found := match violation with
      | none => found
      | some violation =>
        let error := ProgramError.located step.location (.profileViolation violation)
        if error ∈ found then found else error :: found
    collectMarked? marks found others

/-- What the base profile refuses in an operation. -/
def baseViolations? (program : Program) (number : Nat) : Option (List ProgramError) := do
  let operation ← program.operations[number]?
  let steps ← program.flatten? number
  collectMarked? (Array.replicate operation.figures.qubits false) [] steps

/-- The box of a gate, if it has all its controls. -/
def gateBox? (gate : Gate) (qubits : List Nat) : Option Box :=
  if gate.controls ≤ qubits.length then some (gateBox gate qubits) else none

/-- The box of an instruction, and the results counted after it. -/
def instructionBox? (counts : ResultCounts) : Instruction → Option (Box × ResultCounts)
  | .gate gate qubits => do return (← gateBox? gate qubits, counts)
  | .measure qubit => do
    let slot ← counts[qubit]?
    return (measureBox qubit slot, ← put? counts qubit (slot + 1))
  | .reset qubit => some (.plain "|0〉" [.ofQubit qubit], counts)

/-- The boxes of steps in order, given the box of every call. -/
def stepBoxes? (callBox : Nat → ResultCounts → Option (Box × ResultCounts)) :
    List Step → ResultCounts → Option (List Box × ResultCounts)
  | [], counts => some ([], counts)
  | step :: others, counts => do
    let (box, counts) ← match step.action with
      | .perform instruction => instructionBox? counts instruction
      | .call callee => callBox callee counts
    let (boxes, counts) ← stepBoxes? callBox others counts
    return (box :: boxes, counts)

/-- The boxes of an operation; it fails at an operation that is missing or lies deeper than
`depth`. -/
def boxesTo? (program : Program) : Nat → Nat → ResultCounts → Option (List Box × ResultCounts)
  | 0, _, _ => none
  | depth + 1, number, counts => do
    let operation ← program.operations[number]?
    stepBoxes? (fun callee counts => do
      let (children, counts) ← program.boxesTo? depth callee counts
      let called ← program.operations[callee]?
      return (callBox called children, counts)) operation.body counts

/-- The diagram of an operation. -/
def diagram? (program : Program) (number : Nat) : Option Diagram := do
  let operation ← program.operations[number]?
  let (boxes, counts) ← program.boxesTo? program.operations.size number
    (Array.replicate operation.figures.qubits 0)
  return ⟨counts.toList.mapIdx fun qubit results => ⟨qubit, results⟩, boxes⟩

/-! ### Operands within a circuit -/

/-- An instruction that fits, all of whose qubits are below a number. -/
structure Instruction.FitsIn (instruction : Instruction) (qubits : Nat) : Prop where
  fits : instruction.Fits
  lt : ∀ qubit ∈ instruction.qubits, qubit < qubits

variable {sources : List Source} {limits : Limits} {program : Program} {number : Nat}
  {operation : Operation} {instruction : Instruction}

/-- The figures of an operation count all qubits that its instructions act on. -/
theorem fitsIn_of_mem_flatten (haccepted : compile sources limits = .ok program)
    (hoperation : program.operations[number]? = some operation) :
    ∀ step ∈ program.flatten number, step.instruction.FitsIn operation.figures.qubits :=
  fun step hstep => ⟨fits_of_mem_flatten haccepted hstep,
    ((compile_measured haccepted).qubits_isLeast hoperation).1 step hstep⟩

/-- A compiled program keeps the limit of qubits, calls included. -/
theorem qubits_le_maxQubits (haccepted : compile sources limits = .ok program)
    (hoperation : program.operations[number]? = some operation) :
    operation.figures.qubits ≤ limits.maxQubits := by
  refine ((compile_measured haccepted).qubits_isLeast hoperation).2 ?_
  intro step hstep qubit hqubit
  obtain ⟨reached, hreached, line, hbody, -⟩ := mem_inlineTo hstep
  exact compile_lt_maxQubits haccepted reached hreached _ hbody qubit hqubit

/-! ### Inlining -/

theorem mapM_of_all_some {β γ : Type} {items : List β} {find? : β → Option γ} {find : β → γ}
    (hfind : ∀ item ∈ items, find? item = some (find item)) :
    items.mapM find? = some (items.map find) := by
  induction items with
  | nil => rfl
  | cons first others ih =>
      obtain ⟨hfirst, hothers⟩ := List.forall_mem_cons.mp hfind
      rw [List.mapM_cons, hfirst, ih hothers]
      rfl

theorem mapM_eq_filterMap {β γ : Type} {items : List β} {find? : β → Option γ}
    (hfound : ∀ item ∈ items, ∃ value, find? item = some value) :
    items.mapM find? = some (items.filterMap find?) := by
  induction items with
  | nil => rfl
  | cons first others ih =>
      obtain ⟨⟨value, hvalue⟩, hothers⟩ := List.forall_mem_cons.mp hfound
      rw [List.mapM_cons, hvalue, ih hothers, List.filterMap_cons_some hvalue]
      rfl

/-- Inlining an operation of a compiled program finds every operation that is called. -/
theorem flatten?_eq (hmeasured : Measured program) (hnumber : number < program.operations.size) :
    program.flatten? number = some (program.flatten number) := by
  refine hmeasured.depth_induction (motive := fun depth n =>
    program.inlineTo? depth n = some (program.inlineTo depth n))
    (fun depth n hn hbelow => ?_) number hnumber
  have hoperation := Array.getElem?_eq_getElem hn
  have hroutine := routine_of_operation hoperation
  have hbody : ∀ step ∈ program.operations[n].body,
      (match step.action with
        | .perform instruction =>
          some [⟨instruction, ⟨program.operations[n].location.source, step.line⟩⟩]
        | .call callee => program.inlineTo? depth callee) =
      some (match step.action with
        | .perform instruction =>
          [⟨instruction, ⟨program.operations[n].location.source, step.line⟩⟩]
        | .call callee => program.inlineTo depth callee) := by
    rintro ⟨action, line⟩ hstep
    cases action with
    | perform instruction => rfl
    | call callee =>
        refine hbelow callee ((calls_iff_mem hroutine).mpr ?_)
        exact List.mem_filterMap.mpr ⟨_, hstep, rfl⟩
  rw [inlineTo?, hoperation, Option.bind_eq_bind, Option.bind_some, mapM_of_all_some hbody,
    inlineTo, hoperation]
  rfl

/-! ### Marks of measured qubits -/

/-- The marks of the qubits of a list. -/
def Marks (marks : Array Bool) (measured : List Nat) : Prop :=
  ∀ qubit < marks.size, marks[qubit]? = some (decide (qubit ∈ measured))

theorem marks_replicate (qubits : Nat) : Marks (Array.replicate qubits false) [] := by
  intro qubit hqubit
  rw [Array.size_replicate] at hqubit
  simp [hqubit]

theorem findM?_eq_some {items : List Nat} {holds? : Nat → Option Bool} {holds : Nat → Bool}
    (hholds : ∀ item ∈ items, holds? item = some (holds item)) :
    items.findM? holds? = some (items.find? holds) := by
  induction items with
  | nil => rfl
  | cons first others ih =>
      obtain ⟨hfirst, hothers⟩ := List.forall_mem_cons.mp hholds
      rw [List.findM?, hfirst, List.find?_cons, Option.bind_eq_bind, Option.bind_some]
      cases holds first with
      | true => rfl
      | false => exact ih hothers

variable {marks : Array Bool} {measured : List Nat}

/-- An instruction within the marks is refused as if its qubits were looked up in the list. -/
theorem markedViolation?_eq (hmarks : Marks marks measured)
    (hqubits : ∀ qubit ∈ instruction.qubits, qubit < marks.size) :
    ∃ after, markedViolation? marks instruction =
        some (baseViolation? measured instruction, after) ∧
      after.size = marks.size ∧ Marks after (measuredAfter measured instruction) := by
  cases instruction with
  | reset qubit => exact ⟨marks, rfl, rfl, hmarks⟩
  | gate kind qubits =>
      have hfound : qubits.findM? (fun qubit => marks[qubit]?) =
          some (qubits.find? (· ∈ measured)) :=
        findM?_eq_some fun qubit hqubit => hmarks qubit (hqubits qubit hqubit)
      refine ⟨marks, ?_, rfl, hmarks⟩
      rw [markedViolation?, hfound]
      rfl
  | measure qubit =>
      have hqubit := hqubits qubit (List.mem_singleton_self qubit)
      by_cases hagain : qubit ∈ measured
      · refine ⟨marks, ?_, rfl, ?_⟩
        · simp [markedViolation?, hmarks qubit hqubit, hagain, baseViolation?]
        · rw [measuredAfter, if_pos hagain]
          exact hmarks
      · refine ⟨marks.set qubit true hqubit, ?_, Array.size_set .., fun other hother => ?_⟩
        · simp [markedViolation?, hmarks qubit hqubit, hagain, baseViolation?, put?_eq hqubit]
        · rw [Array.size_set] at hother
          rw [measuredAfter, if_neg hagain, Array.getElem?_set, hmarks other hother]
          by_cases hsame : qubit = other
          · simp [hsame]
          · simp [hsame, Ne.symm hsame]

theorem collectMarked?_eq {steps : List FlatStep} (hmarks : Marks marks measured)
    (hsteps : ∀ step ∈ steps, ∀ qubit ∈ step.instruction.qubits, qubit < marks.size)
    (found : List ProgramError) :
    collectMarked? marks found steps = some (collectViolations measured found steps) := by
  induction steps generalizing marks measured found with
  | nil => rfl
  | cons step others ih =>
      obtain ⟨hstep, hothers⟩ := List.forall_mem_cons.mp hsteps
      obtain ⟨after, hviolation, hsize, hafter⟩ := markedViolation?_eq hmarks hstep
      rw [collectMarked?, hviolation, Option.bind_eq_bind, Option.bind_some, collectViolations]
      exact ih hafter (by rwa [hsize]) _

/-- The check against the base profile finds every mark that it looks up. -/
theorem baseViolations?_eq (haccepted : compile sources limits = .ok program)
    (hoperation : program.operations[number]? = some operation) :
    program.baseViolations? number = some (program.violations number .base) := by
  have hflatten := flatten?_eq (compile_measured haccepted)
    (Array.getElem?_eq_some_iff.mp hoperation).1
  rw [baseViolations?, hoperation, hflatten]
  refine collectMarked?_eq (marks_replicate _) (fun step hstep => ?_) []
  rw [Array.size_replicate]
  exact (fitsIn_of_mem_flatten haccepted hoperation step hstep).lt

/-! ### Result slots -/

variable {counts : ResultCounts}

theorem Gate.controls_le_arity (gate : Gate) : gate.controls ≤ gate.arity := by
  cases gate
  all_goals exact Nat.le_of_ble_eq_true rfl

theorem modify_eq_set {index : Nat} (hindex : index < counts.size) (next : Nat → Nat) :
    counts.modify index next = counts.set index (next counts[index]) hindex := by
  apply Array.ext_getElem?
  intro other
  rw [Array.getElem?_modify, Array.getElem?_set]
  split_ifs with hsame
  · subst hsame
    rw [Array.getElem?_eq_getElem hindex, Option.map_some]
  · rfl

theorem instructionBox?_eq (hfits : instruction.FitsIn counts.size) :
    instructionBox? counts instruction = some (instructionBox counts instruction) ∧
      (instructionBox counts instruction).2.size = counts.size := by
  cases instruction with
  | reset qubit => exact ⟨rfl, rfl⟩
  | gate kind qubits =>
      have hcontrols : kind.controls ≤ qubits.length := by
        rw [hfits.fits.1]
        exact kind.controls_le_arity
      exact ⟨by simp [instructionBox?, gateBox?, hcontrols, instructionBox], rfl⟩
  | measure qubit =>
      have hqubit := hfits.lt qubit (List.mem_singleton_self qubit)
      have hslot := Array.getElem?_eq_getElem hqubit
      refine ⟨?_, by simp [instructionBox]⟩
      simp [instructionBox?, instructionBox, hslot, put?_eq hqubit, modify_eq_set hqubit]

/-- A body is drawn as if nothing were looked up once each operation that it calls is. -/
theorem stepBoxes?_eq {callBox? : Nat → ResultCounts → Option (Box × ResultCounts)}
    {callBoxes : Nat → ResultCounts → Box × ResultCounts} {qubits : Nat} {body : List Step}
    (hperform : ∀ instruction, ∀ step ∈ body, step.action = .perform instruction →
      instruction.FitsIn qubits)
    (hcall : ∀ callee ∈ calleesOf body, ∀ counts : ResultCounts, counts.size = qubits →
      callBox? callee counts = some (callBoxes callee counts) ∧
        (callBoxes callee counts).2.size = qubits)
    (hcounts : counts.size = qubits) :
    stepBoxes? callBox? body counts = some (stepBoxes callBoxes body counts) ∧
      (stepBoxes callBoxes body counts).2.size = qubits := by
  induction body generalizing counts with
  | nil => exact ⟨rfl, hcounts⟩
  | cons step others ih =>
      obtain ⟨action, line⟩ := step
      have hothers := fun instruction step hstep =>
        hperform instruction step (List.mem_cons_of_mem _ hstep)
      cases action with
      | perform instruction =>
          have hfits := hperform instruction _ List.mem_cons_self rfl
          obtain ⟨hbox, hsize⟩ := instructionBox?_eq (hcounts ▸ hfits)
          obtain ⟨hboxes, hafter⟩ := ih hothers hcall (hsize.trans hcounts)
          exact ⟨by simp [stepBoxes?, hbox, hboxes, stepBoxes], hafter⟩
      | call callee =>
          rw [calleesOf_call, List.forall_mem_cons] at hcall
          obtain ⟨hbox, hsize⟩ := hcall.1 counts hcounts
          obtain ⟨hboxes, hafter⟩ := ih hothers hcall.2 hsize
          exact ⟨by simp [stepBoxes?, hbox, hboxes, stepBoxes], hafter⟩

/-- Drawing an operation of a compiled program finds every called operation, and every count if
there are as many as it has qubits. -/
theorem boxesTo?_eq (hmeasured : Measured program) (hnumber : number < program.operations.size)
    (counts : ResultCounts)
    (hfits : ∀ step ∈ program.flatten number, step.instruction.FitsIn counts.size) :
    program.boxesTo? program.operations.size number counts =
        some (program.boxesTo program.operations.size number counts) ∧
      (program.boxesTo program.operations.size number counts).2.size = counts.size := by
  refine hmeasured.depth_induction (motive := fun depth n => ∀ counts : ResultCounts,
    (∀ step ∈ program.inlineTo depth n, step.instruction.FitsIn counts.size) →
      program.boxesTo? depth n counts = some (program.boxesTo depth n counts) ∧
        (program.boxesTo depth n counts).2.size = counts.size)
    (fun depth n hn hbelow counts hfits => ?_) number hnumber counts hfits
  have hoperation := Array.getElem?_eq_getElem hn
  have hroutine := routine_of_operation hoperation
  simp only [inlineTo, hoperation, List.mem_flatMap] at hfits
  simp only [boxesTo?, boxesTo, hoperation, Option.bind_eq_bind, Option.bind_some]
  refine stepBoxes?_eq ?_ ?_ rfl
  · rintro instruction ⟨action, line⟩ hstep rfl
    exact hfits _ ⟨_, hstep, List.mem_singleton_self _⟩
  · intro callee hcallee after hafter
    have hcalls := (calls_iff_mem hroutine).mpr hcallee
    have hcalled := Array.getElem?_eq_getElem (hmeasured.callee_lt hcalls)
    have hwithin : ∀ step ∈ program.inlineTo depth callee,
        step.instruction.FitsIn (Array.size after) := by
      obtain ⟨⟨action, line⟩, hstep, haction⟩ := List.mem_filterMap.mp hcallee
      cases action with
      | perform instruction => cases haction
      | call called =>
          obtain rfl := Option.some.inj haction
          intro step hinlined
          rw [hafter]
          exact hfits step ⟨_, hstep, hinlined⟩
    obtain ⟨hboxes, hsize⟩ := hbelow callee hcalls after hwithin
    rw [hafter] at hsize
    simp [hboxes, hcalled, callBox, hsize]

/-- Drawing the diagram of an operation finds everything that it looks up. -/
theorem diagram?_eq (haccepted : compile sources limits = .ok program)
    (hoperation : program.operations[number]? = some operation) :
    program.diagram? number = some (program.diagram number) := by
  have hfits := fitsIn_of_mem_flatten haccepted hoperation
  obtain ⟨hboxes, -⟩ := boxesTo?_eq (compile_measured haccepted)
    (Array.getElem?_eq_some_iff.mp hoperation).1 (Array.replicate operation.figures.qubits 0)
    (by rwa [Array.size_replicate])
  simp [diagram?, diagram, hoperation, hboxes]

end Program

end GateBench
