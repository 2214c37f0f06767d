import GateBench.Proofs.Groups

/-!
The numbering of results.  A drawing carries how many results every qubit has so far through all
groups, and an operation is drawn anew wherever it is called; so the measurements of a qubit, in the
order in which their boxes stand, take consecutive slots, and its wire has as many as it is
measured.
-/

namespace GateBench.Message

/-- A measurement of a qubit. -/
def Box.Measures (box : Box) (qubit : Nat) : Prop :=
  box.isMeasurement = true ∧ box.Mentions qubit

instance (box : Box) (qubit : Nat) : Decidable (box.Measures qubit) :=
  inferInstanceAs (Decidable (box.isMeasurement = true ∧
    ∃ register ∈ box.controls ++ box.targets, register.qubit = qubit))

/-- The targets of the measurements of a qubit, among boxes and all boxes below them in order. -/
def Box.measuredTargets (qubit : Nat) (boxes : List Box) : List (List Register) :=
  ((Box.preorderOfAll boxes).filter (·.Measures qubit)).map (·.targets)

/-- A register is a wire or one of its result slots. -/
def Register.RefersTo (register : Register) (wire : Wire) : Prop :=
  register.qubit = wire.qubit ∧ ∀ slot ∈ register.slot, slot < wire.results

variable {qubit : Nat} {box : Box} {boxes others : List Box}

theorem Box.preorderOfAll_append :
    Box.preorderOfAll (boxes ++ others) = Box.preorderOfAll boxes ++ Box.preorderOfAll others := by
  induction boxes with
  | nil => rfl
  | cons box further ih =>
      rw [List.cons_append, Box.preorderOfAll, ih, Box.preorderOfAll, List.append_assoc]

theorem Box.measuredTargets_append :
    Box.measuredTargets qubit (boxes ++ others) =
      Box.measuredTargets qubit boxes ++ Box.measuredTargets qubit others := by
  simp only [Box.measuredTargets, Box.preorderOfAll_append, List.filter_append, List.map_append]

theorem Box.measuredTargets_singleton :
    Box.measuredTargets qubit [box] =
      (if box.Measures qubit then [box.targets] else []) ++
        Box.measuredTargets qubit box.children := by
  simp only [Box.measuredTargets, Box.preorderOfAll, Box.preorder_eq, List.append_nil,
    List.filter_cons, decide_eq_true_eq]
  split_ifs <;> rfl

theorem Box.measuredTargets_eq_nil
    (hunused : ¬ ∃ box ∈ Box.preorderOfAll boxes, box.Mentions qubit) :
    Box.measuredTargets qubit boxes = [] := by
  refine List.map_eq_nil_iff.mpr (List.filter_eq_nil_iff.mpr fun box hbox hmeasures => ?_)
  exact hunused ⟨box, hbox, (of_decide_eq_true hmeasures).2⟩

/-- A measurement that some register belongs to has its targets among those of that qubit. -/
theorem Box.targets_mem_measuredTargets (hbox : box ∈ Box.preorderOfAll boxes)
    (hmeasurement : box.isMeasurement = true) {register : Register}
    (htarget : register ∈ box.targets) :
    box.targets ∈ Box.measuredTargets register.qubit boxes := by
  refine List.mem_map.mpr ⟨box, List.mem_filter.mpr ⟨hbox, decide_eq_true ?_⟩, rfl⟩
  exact ⟨hmeasurement, register, List.mem_append_right _ htarget, rfl⟩

end GateBench.Message

namespace GateBench.Program

open GateBench.Message

/-- How many of some steps measure a qubit. -/
def measurements (qubit : Nat) (steps : List FlatStep) : Nat :=
  steps.countP (·.instruction = .measure qubit)

/-- What drawing some steps does to the results counted before: each qubit has one more for each of
its measurements, and these took the slots from the first free one on, in order. -/
structure IsNumbered (counts : ResultCounts) (boxes : List Box) (steps : List FlatStep)
    (after : ResultCounts) : Prop where
  counted : ∀ qubit, after[qubit]? = counts[qubit]?.map (· + measurements qubit steps)
  slots : ∀ qubit count, counts[qubit]? = some count →
    Box.measuredTargets qubit boxes =
      (List.range' count (measurements qubit steps)).map fun slot => [.ofResult qubit slot]

variable {program : Program} {source : String} {body : List Step}
  {boxes others children : List Box} {counts between after : ResultCounts}
  {steps rest : List FlatStep} {number calls qubit : Nat} {operation : Operation}

theorem measurements_append :
    measurements qubit (steps ++ rest) = measurements qubit steps + measurements qubit rest :=
  List.countP_append

theorem measurements_eq_zero (hunused : ¬ ∃ step ∈ steps, qubit ∈ step.instruction.qubits) :
    measurements qubit steps = 0 := by
  refine List.countP_eq_zero.mpr fun step hstep hmeasures => hunused ⟨step, hstep, ?_⟩
  rw [of_decide_eq_true hmeasures]
  exact List.mem_singleton_self qubit

namespace IsNumbered

theorem done (counts : ResultCounts) : IsNumbered counts [] [] counts where
  counted qubit := by simp [measurements]
  slots qubit count _ := by simp [measurements, Box.measuredTargets, Box.preorderOfAll]

theorem instruction (counts : ResultCounts) (instruction : Instruction) (location : Location) :
    IsNumbered counts [(instructionBox counts instruction).1] [⟨instruction, location⟩]
      (instructionBox counts instruction).2 where
  counted qubit := by
    cases instruction with
    | gate kind qubits => simp [instructionBox, measurements]
    | reset other => simp [instructionBox, measurements]
    | measure other =>
        by_cases hsame : other = qubit
        · simp [instructionBox, measurements, Array.getElem?_modify, hsame]
        · simp [instructionBox, measurements, Array.getElem?_modify, hsame]
  slots qubit count hcount := by
    rw [Box.measuredTargets_singleton, instructionBox_children]
    cases instruction with
    | gate kind qubits =>
        simp [instructionBox, measurements, Box.Measures, gateBox, Box.measuredTargets,
          Box.preorderOfAll]
    | reset other =>
        simp [instructionBox, measurements, Box.Measures, Box.plain, Box.measuredTargets,
          Box.preorderOfAll]
    | measure other =>
        by_cases hsame : other = qubit
        · subst hsame
          simp [instructionBox, measurements, Box.Measures, measureBox, Box.measuredTargets,
            Box.preorderOfAll, hcount, Box.Mentions, Register.ofQubit]
        · simp [instructionBox, measurements, Box.Measures, measureBox, Box.measuredTargets,
            Box.preorderOfAll, hsame, Box.Mentions, Register.ofQubit, Register.ofResult]

/-- A group around boxes changes nothing. -/
theorem group (hnumbered : IsNumbered counts children steps after) (called : Operation) :
    IsNumbered counts [callBox called children] steps after where
  counted := hnumbered.counted
  slots qubit count hcount := by
    rw [Box.measuredTargets_singleton, callBox_children, hnumbered.slots qubit count hcount]
    simp [Box.Measures, callBox, Box.plain]

/-- What is drawn behind goes on with the first slots that are still free. -/
theorem append (hfirst : IsNumbered counts boxes steps between)
    (hsecond : IsNumbered between others rest after) :
    IsNumbered counts (boxes ++ others) (steps ++ rest) after where
  counted qubit := by
    rw [hsecond.counted, hfirst.counted, Option.map_map, measurements_append]
    congr 1
    funext count
    exact Nat.add_assoc count _ _
  slots qubit count hcount := by
    have hbetween : between[qubit]? = some (count + measurements qubit steps) := by
      rw [hfirst.counted, hcount, Option.map_some]
    rw [Box.measuredTargets_append, hfirst.slots qubit count hcount,
      hsecond.slots qubit _ hbetween, ← List.map_append, List.range'_append_1, measurements_append]

theorem wires_eq {qubits : Nat}
    (hnumbered : IsNumbered (Array.replicate qubits 0) boxes steps after) :
    after.toList.mapIdx Wire.mk =
      (List.range qubits).map fun qubit => ⟨qubit, measurements qubit steps⟩ := by
  apply List.ext_getElem?
  intro qubit
  rw [List.getElem?_mapIdx, Array.getElem?_toList, hnumbered.counted, List.getElem?_map,
    Array.getElem?_replicate]
  by_cases hqubit : qubit < qubits
  · simp [hqubit]
  · simp [hqubit]

/-- When nothing was counted before, the slots are those from zero on. -/
theorem slots_of_replicate {qubits : Nat}
    (hnumbered : IsNumbered (Array.replicate qubits 0) boxes steps after)
    (hqubit : qubit < qubits) :
    Box.measuredTargets qubit boxes =
      (List.range (measurements qubit steps)).map fun slot => [.ofResult qubit slot] := by
  rw [List.range_eq_range']
  exact hnumbered.slots qubit 0 (by simp [hqubit])

end IsNumbered

/-- Drawing a body numbers the measurements of its inlined steps. -/
theorem Draws.isNumbered (hdraws : Draws program body counts boxes after)
    (hinlines : Inlines program.routines source body steps calls) :
    IsNumbered counts boxes steps after := by
  induction hdraws generalizing source steps calls with
  | done counts =>
      cases hinlines
      exact .done counts
  | @perform instruction _ _ _ counts _ _ ih =>
      cases hinlines with
      | perform hrest => exact (IsNumbered.instruction counts instruction _).append (ih hrest)
  | @call _ _ called _ _ _ _ _ _ hcalled _ _ ihchildren ihrest =>
      obtain ⟨_, _, _, _, rfl, hbelow, hrest⟩ := hinlines.of_call hcalled
      exact ((ihchildren hbelow).group called).append (ihrest hrest)

/-! ### Registers -/

theorem instructionBox_slot {instruction : Instruction} {register : Register} {slot : Nat}
    (hmem : register ∈ (instructionBox counts instruction).1.controls ++
      (instructionBox counts instruction).1.targets) (hslot : slot ∈ register.slot) :
    (instructionBox counts instruction).1.isMeasurement = true ∧
      register ∈ (instructionBox counts instruction).1.targets := by
  have hplain : ∀ qubits : List Nat, register ∉ qubits.map .ofQubit := by
    rintro qubits hregister
    obtain ⟨qubit, -, rfl⟩ := List.mem_map.mp hregister
    nomatch hslot
  rcases List.mem_append.mp hmem with hcontrol | htarget
  · cases instruction with
    | gate kind qubits => exact absurd hcontrol (hplain _)
    | measure qubit => exact absurd hcontrol (hplain [qubit])
    | reset qubit => nomatch hcontrol
  · cases instruction with
    | gate kind qubits => exact absurd htarget (hplain _)
    | measure qubit => exact ⟨rfl, htarget⟩
    | reset qubit => exact absurd htarget (hplain [qubit])

/-- Only measurements have result slots among their registers, and these are their targets. -/
theorem Draws.slot_isMeasured (hdraws : Draws program body counts boxes after) :
    ∀ box ∈ Box.preorderOfAll boxes, ∀ register ∈ box.controls ++ box.targets,
      ∀ slot ∈ register.slot, box.isMeasurement = true ∧ register ∈ box.targets := by
  induction hdraws with
  | done => exact fun box hbox => nomatch hbox
  | perform _ ih =>
      intro box hbox register hregister slot hslot
      rw [Box.mem_preorderOfAll_cons, instructionBox_children] at hbox
      rcases hbox with rfl | hbox | hbox
      · exact instructionBox_slot hregister hslot
      · nomatch hbox
      · exact ih box hbox register hregister slot hslot
  | call _ _ _ ihchildren ihrest =>
      intro box hbox register hregister slot hslot
      rw [Box.mem_preorderOfAll_cons, callBox_children] at hbox
      rcases hbox with rfl | hbox | hbox
      · obtain ⟨qubit, -, rfl⟩ := List.mem_map.mp hregister
        nomatch hslot
      · exact ihchildren box hbox register hregister slot hslot
      · exact ihrest box hbox register hregister slot hslot

/-! ### The whole diagram -/

/-- The wires of a diagram are those of the operation's qubits, in order, and each has as many
results as the qubit is measured when all is inlined.  In the order in which boxes stand, groups in
front of their contents, the measurements of a qubit have the slots from zero on as their targets;
and every register of a box is a wire of the diagram or a result slot that its wire has. -/
theorem diagram_numbers_results {sources : List Source} {limits : Limits}
    (haccepted : compile sources limits = .ok program)
    (hoperation : program.operations[number]? = some operation) :
    (program.diagram number).wires = (List.range operation.figures.qubits).map (fun qubit =>
        ⟨qubit, measurements qubit (program.flatten number)⟩) ∧
      (∀ qubit, Box.measuredTargets qubit (program.diagram number).boxes =
        (List.range (measurements qubit (program.flatten number))).map fun slot =>
          [.ofResult qubit slot]) ∧
      ∀ box ∈ Box.preorderOfAll (program.diagram number).boxes,
        ∀ register ∈ box.controls ++ box.targets,
          ∃ wire ∈ (program.diagram number).wires, register.RefersTo wire := by
  have hmeasured := compile_measured haccepted
  obtain ⟨after, calls, hdraws, hinlines, hwires⟩ := hmeasured.diagram_draws_inlined hoperation
  have hnumbered := hdraws.isNumbered hinlines
  have hwithin := (hmeasured.qubits_isLeast hoperation).1
  rw [hnumbered.wires_eq] at hwires
  have hslots : ∀ qubit, Box.measuredTargets qubit (program.diagram number).boxes =
      (List.range (measurements qubit (program.flatten number))).map fun slot =>
        [.ofResult qubit slot] := by
    intro qubit
    by_cases hqubit : qubit < operation.figures.qubits
    · exact hnumbered.slots_of_replicate hqubit
    · have hunused : ¬ ∃ step ∈ program.flatten number, qubit ∈ step.instruction.qubits :=
        fun ⟨step, hstep, hmem⟩ => hqubit (hwithin step hstep qubit hmem)
      rw [measurements_eq_zero hunused]
      exact Box.measuredTargets_eq_nil (mt (hdraws.mentions_iff hmeasured hinlines).mp hunused)
  refine ⟨hwires, hslots, fun box hbox register hregister => ?_⟩
  obtain ⟨step, hstep, hqubit⟩ := (hdraws.mentions_iff hmeasured hinlines).mp
    ⟨box, hbox, register, hregister, rfl⟩
  refine ⟨⟨register.qubit, measurements register.qubit (program.flatten number)⟩, ?_, rfl,
    fun slot hslot => ?_⟩
  · rw [hwires]
    exact List.mem_map.mpr ⟨_, List.mem_range.mpr (hwithin step hstep _ hqubit), rfl⟩
  · obtain ⟨hmeasurement, htarget⟩ := hdraws.slot_isMeasured box hbox register hregister slot hslot
    have htargets := Box.targets_mem_measuredTargets hbox hmeasurement htarget
    rw [hslots] at htargets
    obtain ⟨slot', hslot', htargets⟩ := List.mem_map.mp htargets
    rw [← htargets, List.mem_singleton] at htarget
    rw [htarget] at hslot
    obtain rfl := Option.some.inj hslot
    exact List.mem_range.mp hslot'

/-- The qubit is measured in both groups of the second operation: into the first slot of its wire in
the first group, into the other slot in the other one. -/
theorem diagram_numbers_results_measuredTwice :
    compile [measuredTwice] {} = .ok measuredTwiceProgram ∧
      measuredTwiceProgram.operations[0]? = some measuredTwiceProgram.operations[0] ∧
      (measuredTwiceProgram.diagram 0).wires = [⟨0, 2⟩, ⟨1, 0⟩, ⟨2, 0⟩] ∧
      Box.measuredTargets 0 [measuredTwiceGroup 0, measuredTwiceGroup 1] =
        [[.ofResult 0 0], [.ofResult 0 1]] ∧
      Box.measuredTargets 2 [measuredTwiceGroup 0, measuredTwiceGroup 1] = [] ∧
      ∃ wire ∈ (measuredTwiceProgram.diagram 0).wires,
        (Register.ofResult 0 1).RefersTo wire := by
  have hoperation :
      measuredTwiceProgram.operations[0]? = some measuredTwiceProgram.operations[0] := rfl
  obtain ⟨hwires, hslots, hregisters⟩ :=
    diagram_numbers_results compile_measuredTwice hoperation
  rw [diagram_measuredTwice] at hslots
  have hmeasured : measureBox 0 1 ∈ Box.preorderOfAll (measuredTwiceProgram.diagram 0).boxes :=
    List.mem_of_getElem? (i := 7) rfl
  refine ⟨compile_measuredTwice, hoperation, hwires, hslots 0, hslots 2, ?_⟩
  exact hregisters _ hmeasured _ (List.mem_cons_of_mem _ List.mem_cons_self)

end GateBench.Program
