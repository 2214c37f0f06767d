import GateBench.Proofs.Inlining
import Mathlib.Order.Lattice

/-!
The figures of operations are those of their inlined instructions.  They are computed from the
figures of callees alone, so they are right once callees come before their callers.
-/

namespace GateBench.Program

/-! ### Ascending lists -/

theorem mem_insertAscending {n m : Nat} {numbers : List Nat} :
    m ∈ insertAscending n numbers ↔ m = n ∨ m ∈ numbers := by
  induction numbers with
  | nil => simp [insertAscending]
  | cons first others ih =>
      simp only [insertAscending]
      split
      · simp
      · split
        · rename_i heq
          simp [heq]
        · simp only [List.mem_cons, ih]
          exact or_left_comm

theorem insertAscending_pairwise {n : Nat} {numbers : List Nat}
    (hascending : numbers.Pairwise (· < ·)) : (insertAscending n numbers).Pairwise (· < ·) := by
  induction numbers with
  | nil => simp [insertAscending]
  | cons first others ih =>
      have hothers := List.pairwise_cons.mp hascending
      simp only [insertAscending]
      split
      · rename_i hlt
        refine List.pairwise_cons.mpr ⟨fun m hm => ?_, hascending⟩
        rcases List.mem_cons.mp hm with rfl | hm
        · exact hlt
        · exact Nat.lt_trans hlt (hothers.1 m hm)
      · split
        · exact hascending
        · refine List.pairwise_cons.mpr ⟨fun m hm => ?_, ih hothers.2⟩
          rcases mem_insertAscending.mp hm with rfl | hm
          · omega
          · exact hothers.1 m hm

theorem mem_uniteAscending {m : Nat} {numbers ascending : List Nat} :
    m ∈ uniteAscending numbers ascending ↔ m ∈ numbers ∨ m ∈ ascending := by
  induction numbers generalizing ascending with
  | nil => simp [uniteAscending]
  | cons first others ih =>
      have hrest := @ih (insertAscending first ascending)
      simp only [uniteAscending, List.foldl_cons] at hrest ⊢
      rw [hrest, mem_insertAscending, List.mem_cons]
      exact or_left_comm.trans or_assoc.symm

theorem uniteAscending_pairwise {numbers ascending : List Nat}
    (hascending : ascending.Pairwise (· < ·)) :
    (uniteAscending numbers ascending).Pairwise (· < ·) := by
  induction numbers generalizing ascending with
  | nil => exact hascending
  | cons first others ih => exact ih (insertAscending_pairwise hascending)

/-! ### Figures of a body -/

/-- What figures tell of inlined steps, of the calls followed to reach them, and of the longest
chain of these calls. -/
structure Figures.Tell (figures : Figures) (steps : List FlatStep) (calls depth : Nat) : Prop where
  ascending : figures.touched.Pairwise (· < ·)
  touched : ∀ qubit, qubit ∈ figures.touched ↔ ∃ step ∈ steps, qubit ∈ step.instruction.qubits
  steps : figures.steps = min maxCount (steps.length + calls)
  callDepth : figures.callDepth = min maxCount depth

/-- The figures are those of the operation of a number. -/
def Figures.AreOf (figures : Figures) (routines : Array Routine) (number : Nat) : Prop :=
  ∃ steps calls depth, InlinesTo routines number steps calls ∧
    IsGreatest (chainsBelow routines number) depth ∧ figures.Tell steps calls depth

variable {routines : Array Routine} {figures : Figures} {steps below : List FlatStep}
  {calls callsBelow depth depthBelow : Nat} {figuresOf : Nat → Figures} {body : List Step}

namespace Figures.Tell

theorem empty : Figures.empty.Tell [] 0 0 :=
  ⟨List.Pairwise.nil, by simp [Figures.empty], by simp [Figures.empty], by simp [Figures.empty]⟩

theorem afterPerform (htell : figures.Tell steps calls depth) (figuresOf : Nat → Figures)
    (instruction : Instruction) (line : Nat) (location : Location) :
    (figures.afterStep figuresOf ⟨.perform instruction, line⟩).Tell
      (steps ++ [⟨instruction, location⟩]) calls depth where
  ascending := uniteAscending_pairwise htell.ascending
  touched qubit := by
    simp only [Figures.afterStep, mem_uniteAscending, htell.touched, List.mem_append,
      List.mem_singleton, or_and_right, exists_or, exists_eq_left]
    exact or_comm
  steps := by
    simp only [Figures.afterStep, saturatedAdd, htell.steps, List.length_append,
      List.length_singleton]
    omega
  callDepth := htell.callDepth

theorem afterCall (htell : figures.Tell steps calls depth) {callee : Nat}
    (hbelow : (figuresOf callee).Tell below callsBelow depthBelow) (line : Nat) :
    (figures.afterStep figuresOf ⟨.call callee, line⟩).Tell (steps ++ below)
      (calls + (1 + callsBelow)) (max depth (depthBelow + 1)) where
  ascending := uniteAscending_pairwise htell.ascending
  touched qubit := by
    simp only [Figures.afterStep, mem_uniteAscending, htell.touched, hbelow.touched,
      List.mem_append, or_and_right, exists_or]
    exact or_comm
  steps := by
    simp only [Figures.afterStep, saturatedAdd, htell.steps, hbelow.steps, List.length_append]
    omega
  callDepth := by
    simp only [Figures.afterStep, saturatedAdd, htell.callDepth, hbelow.callDepth]
    omega

end Figures.Tell

/-- The figures of a body are right once those of all its callees are. -/
theorem Figures.ofBody_tell (source : String)
    (hcallees : ∀ callee ∈ calleesOf body, (figuresOf callee).AreOf routines callee) :
    ∃ steps calls depth, Inlines routines source body steps calls ∧
      IsGreatest (chainsFrom routines (calleesOf body)) depth ∧
      (Figures.ofBody figuresOf body).Tell steps calls depth := by
  induction body using List.reverseRecOn with
  | nil => exact ⟨[], 0, 0, .done source, chainsFrom_nil, .empty⟩
  | append_singleton front step ih =>
      obtain ⟨steps, calls, depth, hinlines, hdepth, htell⟩ := ih fun callee hcallee =>
        hcallees callee (by simp [hcallee])
      rw [Figures.ofBody, List.foldl_append]
      obtain ⟨action, line⟩ := step
      cases action with
      | perform instruction =>
          refine ⟨_, _, depth, hinlines.append (.perform (.done source)), ?_, ?_⟩
          · simpa using hdepth
          · exact htell.afterPerform figuresOf instruction line ⟨source, line⟩
      | call callee =>
          obtain ⟨below, callsBelow, depthBelow, ⟨routine, hroutine, hbelow⟩, hgreatest, htold⟩ :=
            hcallees callee (by simp)
          refine ⟨steps ++ below, calls + (1 + callsBelow), _, ?_, ?_,
            htell.afterCall htold line⟩
          · simpa using hinlines.append (.call hroutine hbelow (.done source))
          · simpa using chainsFrom_append_isGreatest hdepth hgreatest

/-- The number of qubits is one more than the highest one touched, or none. -/
theorem Figures.qubits_isLeast (hascending : figures.touched.Pairwise (· < ·)) :
    IsLeast { count | ∀ qubit ∈ figures.touched, qubit < count } figures.qubits := by
  unfold Figures.qubits
  cases hfront : figures.touched using List.reverseRecOn with
  | nil => exact ⟨by simp, fun count _ => Nat.zero_le count⟩
  | append_singleton front last =>
      rw [hfront, List.pairwise_append] at hascending
      simp only [List.getLast?_append, List.getLast?_singleton, Option.some_or, Option.map_some,
        Option.getD_some]
      constructor
      · intro qubit hqubit
        rcases List.mem_append.mp hqubit with hqubit | hqubit
        · exact Nat.lt_succ_of_lt (hascending.2.2 qubit hqubit last List.mem_cons_self)
        · exact Nat.lt_succ_of_le (Nat.le_of_eq (List.mem_singleton.mp hqubit))
      · exact fun count hcount => hcount last (by simp)

/-! ### Figures of all operations -/

theorem measureAll_size (order : List Nat) :
    (measureAll routines order).size = routines.size := by
  unfold measureAll
  induction order using List.reverseRecOn with
  | nil => simp
  | append_singleton earlier operation ih =>
      rw [List.foldl_append]
      simp only [List.foldl_cons, List.foldl_nil]
      split <;> simpa using ih

theorem measureAll_append (earlier : List Nat) {operation : Nat} {routine : Routine}
    (hroutine : routines[operation]? = some routine) :
    measureAll routines (earlier ++ [operation]) =
      (measureAll routines earlier).setIfInBounds operation
        (.ofBody (figuresAt (measureAll routines earlier)) routine.body) := by
  simp [measureAll, hroutine]

theorem figuresAt_setIfInBounds {table : Array Figures} {number other : Nat} {figures : Figures}
    (hnumber : number < table.size) :
    figuresAt (table.setIfInBounds number figures) other =
      if number = other then figures else figuresAt table other := by
  unfold figuresAt
  by_cases heq : number = other
  · subst heq
    simp [Array.getElem?_setIfInBounds_self_of_lt hnumber]
  · simp [Array.getElem?_setIfInBounds_ne heq, heq]

/-- Measured in an order with callees first, all figures are right. -/
theorem measureAll_areOf {order : List Nat} (hlisted : Listed (callsIn routines) [] order)
    (hnodup : order.Nodup) (hbound : ∀ n ∈ order, n < routines.size) :
    ∀ n ∈ order, (figuresAt (measureAll routines order.reverse) n).AreOf routines n := by
  induction order with
  | nil => simp
  | cons operation earlier ih =>
      have hbelow := ih hlisted.2 (List.nodup_cons.mp hnodup).2
        fun n hn => hbound n (List.mem_cons_of_mem operation hn)
      have hoperation := hbound operation List.mem_cons_self
      have hroutine := Array.getElem?_eq_getElem hoperation
      intro n hn
      rw [List.reverse_cons, measureAll_append _ hroutine,
        figuresAt_setIfInBounds (by rwa [measureAll_size])]
      split
      · rename_i heq
        subst heq
        obtain ⟨steps, calls, depth, hinlines, hdepth, htell⟩ :=
          Figures.ofBody_tell (routines[operation].location.source) fun callee hcallee =>
            hbelow callee (hlisted.callee_mem_earlier
              (callsTo_callsIn_iff.mpr ((calls_iff_mem hroutine).mpr hcallee)))
        exact ⟨steps, calls, depth, ⟨_, hroutine, hinlines⟩,
          (chainsBelow_eq hroutine).symm ▸ hdepth, htell⟩
      · rename_i hne
        exact hbelow n ((List.mem_cons.mp hn).resolve_left (Ne.symm hne))

end GateBench.Program
