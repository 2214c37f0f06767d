import GateBench.Program.Compile
import GateBench.Program.Flatten
import GateBench.Proofs.CallWalk
import Mathlib.Data.List.Induction
import Mathlib.Order.Bounds.Basic

/-!
What inlining a program means: which instructions an operation comes to when every call is replaced
by the body it calls, how many calls are followed on the way, and how long chains of calls get.
-/

namespace GateBench.Program

/-- The operations of a program without their figures. -/
def routines (program : Program) : Array Routine :=
  program.operations.map (·.toRoutine)

/-- The operation of a number calls the operation of another. -/
def Calls (routines : Array Routine) (caller callee : Nat) : Prop :=
  ∃ routine, routines[caller]? = some routine ∧ callee ∈ routine.callees

/-- `Inlines routines source body steps calls`: replacing every call in a body of a source by what
it calls leaves these steps and follows this many calls. -/
inductive Inlines (routines : Array Routine) : String → List Step → List FlatStep → Nat → Prop
  | done (source : String) : Inlines routines source [] [] 0
  | perform {source : String} {instruction : Instruction} {line : Nat} {rest : List Step}
      {steps : List FlatStep} {calls : Nat} :
      Inlines routines source rest steps calls →
      Inlines routines source (⟨.perform instruction, line⟩ :: rest)
        (⟨instruction, ⟨source, line⟩⟩ :: steps) calls
  | call {source : String} {callee line : Nat} {routine : Routine} {rest : List Step}
      {below steps : List FlatStep} {callsBelow calls : Nat} :
      routines[callee]? = some routine →
      Inlines routines routine.location.source routine.body below callsBelow →
      Inlines routines source rest steps calls →
      Inlines routines source (⟨.call callee, line⟩ :: rest) (below ++ steps)
        (1 + callsBelow + calls)

/-- What inlining makes of the operation of a number. -/
def InlinesTo (routines : Array Routine) (number : Nat) (steps : List FlatStep) (calls : Nat) :
    Prop :=
  ∃ routine, routines[number]? = some routine ∧
    Inlines routines routine.location.source routine.body steps calls

/-- The size of an operation when all is inlined: each instruction counts one, and each call counts
one and the size of what it calls. -/
def HasSize (routines : Array Routine) (number size : Nat) : Prop :=
  ∃ steps calls, InlinesTo routines number steps calls ∧ steps.length + calls = size

/-- The lengths of the chains of nested calls that start at one of some operations. -/
def chainsFrom (routines : Array Routine) (starts : List Nat) : Set Nat :=
  { n | ∃ chain : List Nat, chain.IsChain (Calls routines) ∧
      (∀ first ∈ chain.head?, first ∈ starts) ∧ chain.length = n }

/-- The lengths of the chains of nested calls below an operation. -/
def chainsBelow (routines : Array Routine) (number : Nat) : Set Nat :=
  { n | ∃ chain : List Nat, (number :: chain).IsChain (Calls routines) ∧ chain.length = n }

/-- The operations that a body calls. -/
def calleesOf (body : List Step) : List Nat :=
  body.filterMap (·.action.callee?)

@[simp] theorem calleesOf_nil : calleesOf [] = [] := rfl

@[simp] theorem calleesOf_perform (instruction : Instruction) (line : Nat) (rest : List Step) :
    calleesOf (⟨.perform instruction, line⟩ :: rest) = calleesOf rest := rfl

@[simp] theorem calleesOf_call (callee line : Nat) (rest : List Step) :
    calleesOf (⟨.call callee, line⟩ :: rest) = callee :: calleesOf rest := rfl

@[simp] theorem calleesOf_append (body rest : List Step) :
    calleesOf (body ++ rest) = calleesOf body ++ calleesOf rest :=
  List.filterMap_append

variable {routines : Array Routine} {source : String} {body rest : List Step}
  {steps steps' : List FlatStep} {calls calls' number : Nat} {routine : Routine}

/-! ### Calls -/

theorem callee?_eq_some_iff {action : StepAction} {callee : Nat} :
    action.callee? = some callee ↔ action = .call callee := by
  cases action <;> simp [StepAction.callee?]

/-- The calls of an operation are made by statements of its body. -/
theorem mem_callsIn_iff {site : CallSite} :
    site ∈ callsIn routines number ↔
      ∃ routine, routines[number]? = some routine ∧
        ∃ step ∈ routine.body, step.action = .call site.callee ∧ step.line = site.line := by
  obtain ⟨callee, line⟩ := site
  unfold callsIn
  cases routines[number]? with
  | none => simp
  | some routine => simp [Routine.callSites, callee?_eq_some_iff]

theorem callsTo_callsIn_iff {caller callee : Nat} :
    CallsTo (callsIn routines) caller callee ↔ Calls routines caller callee := by
  constructor
  · rintro ⟨site, hsite, rfl⟩
    obtain ⟨routine, hroutine, step, hstep, haction, -⟩ := mem_callsIn_iff.mp hsite
    have hcallee := callee?_eq_some_iff.mpr haction
    exact ⟨routine, hroutine, List.mem_filterMap.mpr ⟨step, hstep, hcallee⟩⟩
  · rintro ⟨routine, hroutine, hcallee⟩
    obtain ⟨step, hstep, hcalled⟩ := List.mem_filterMap.mp hcallee
    have haction := callee?_eq_some_iff.mp hcalled
    exact ⟨⟨callee, step.line⟩,
      mem_callsIn_iff.mpr ⟨routine, hroutine, step, hstep, haction, rfl⟩, rfl⟩

theorem callsTo_callsIn (routines : Array Routine) :
    CallsTo (callsIn routines) = Calls routines := by
  funext caller callee
  exact propext callsTo_callsIn_iff

theorem callsIn_eq_nil (hnumber : routines.size ≤ number) : callsIn routines number = [] := by
  simp [callsIn, Array.getElem?_eq_none hnumber]

theorem Calls.caller_lt {callee : Nat} (hcalls : Calls routines number callee) :
    number < routines.size := by
  obtain ⟨routine, hroutine, -⟩ := hcalls
  exact (Array.getElem?_eq_some_iff.mp hroutine).1

theorem calls_iff_mem (hroutine : routines[number]? = some routine) {callee : Nat} :
    Calls routines number callee ↔ callee ∈ calleesOf routine.body := by
  simp [Calls, hroutine, Routine.callees, calleesOf]

/-! ### Inlining -/

theorem Inlines.append {steps' : List FlatStep} {calls' : Nat}
    (hbody : Inlines routines source body steps calls)
    (hrest : Inlines routines source rest steps' calls') :
    Inlines routines source (body ++ rest) (steps ++ steps') (calls + calls') := by
  induction hbody with
  | done => simpa using hrest
  | perform _ ih => exact .perform (ih hrest)
  | call hroutine hbelow _ _ ih =>
      rw [List.cons_append, List.append_assoc, Nat.add_assoc]
      exact .call hroutine hbelow (ih hrest)

/-- Inlining has one result. -/
theorem Inlines.unique (hfirst : Inlines routines source body steps calls)
    (hsecond : Inlines routines source body steps' calls') : steps = steps' ∧ calls = calls' := by
  induction hfirst generalizing steps' calls' with
  | done => cases hsecond; exact ⟨rfl, rfl⟩
  | perform _ ih =>
      cases hsecond with
      | perform hrest =>
          obtain ⟨rfl, rfl⟩ := ih hrest
          exact ⟨rfl, rfl⟩
  | call hroutine _ _ ihbelow ihrest =>
      cases hsecond with
      | call hroutine' hbelow hrest =>
          cases Option.some.inj (hroutine.symm.trans hroutine')
          obtain ⟨rfl, rfl⟩ := ihbelow hbelow
          obtain ⟨rfl, rfl⟩ := ihrest hrest
          exact ⟨rfl, rfl⟩

theorem InlinesTo.unique (hfirst : InlinesTo routines number steps calls)
    (hsecond : InlinesTo routines number steps' calls') : steps = steps' ∧ calls = calls' := by
  obtain ⟨routine, hroutine, hinlines⟩ := hfirst
  obtain ⟨routine', hroutine', hinlines'⟩ := hsecond
  cases Option.some.inj (hroutine.symm.trans hroutine')
  exact hinlines.unique hinlines'

theorem HasSize.unique {size size' : Nat} (hfirst : HasSize routines number size)
    (hsecond : HasSize routines number size') : size = size' := by
  obtain ⟨steps, calls, hinlines, rfl⟩ := hfirst
  obtain ⟨steps', calls', hinlines', rfl⟩ := hsecond
  obtain ⟨rfl, rfl⟩ := hinlines.unique hinlines'
  rfl

/-- A body is inlined once each operation that it calls is. -/
theorem Inlines.of_callees (inlined : Nat → List FlatStep) (source : String)
    (hcallees : ∀ callee ∈ calleesOf body,
      ∃ calls, InlinesTo routines callee (inlined callee) calls) :
    ∃ calls, Inlines routines source body
      (body.flatMap fun step => match step.action with
        | .perform instruction => [⟨instruction, ⟨source, step.line⟩⟩]
        | .call callee => inlined callee) calls := by
  induction body with
  | nil => exact ⟨0, .done source⟩
  | cons step rest ih =>
      obtain ⟨action, line⟩ := step
      cases action with
      | perform instruction =>
          obtain ⟨calls, hrest⟩ := ih hcallees
          exact ⟨calls, .perform hrest⟩
      | call callee =>
          simp only [calleesOf_call, List.mem_cons, forall_eq_or_imp] at hcallees
          obtain ⟨callsBelow, routine, hroutine, hbelow⟩ := hcallees.1
          obtain ⟨calls, hrest⟩ := ih hcallees.2
          exact ⟨1 + callsBelow + calls, .call hroutine hbelow hrest⟩

/-! ### Chains of calls -/

theorem chainsBelow_eq (hroutine : routines[number]? = some routine) :
    chainsBelow routines number = chainsFrom routines (calleesOf routine.body) := by
  ext n
  simp only [chainsBelow, chainsFrom, Set.mem_ofPred_eq, List.isChain_cons]
  constructor
  · rintro ⟨chain, ⟨hfirst, hchain⟩, hlength⟩
    exact ⟨chain, hchain, fun first hmem => (calls_iff_mem hroutine).mp (hfirst first hmem),
      hlength⟩
  · rintro ⟨chain, hchain, hfirst, hlength⟩
    exact ⟨chain, ⟨fun first hmem => (calls_iff_mem hroutine).mpr (hfirst first hmem), hchain⟩,
      hlength⟩

theorem chainsFrom_nil : IsGreatest (chainsFrom routines []) 0 := by
  refine ⟨⟨[], .nil, by simp, rfl⟩, ?_⟩
  rintro n ⟨chain, -, hfirst, rfl⟩
  cases chain with
  | nil => simp
  | cons first others => simpa using hfirst first rfl

/-- One more start makes chains as long as those below it, and one call longer. -/
theorem chainsFrom_append_isGreatest {starts : List Nat} {depth below start : Nat}
    (hdepth : IsGreatest (chainsFrom routines starts) depth)
    (hbelow : IsGreatest (chainsBelow routines start) below) :
    IsGreatest (chainsFrom routines (starts ++ [start])) (max depth (below + 1)) := by
  constructor
  · rcases Nat.le_total (below + 1) depth with hle | hle
    · obtain ⟨chain, hchain, hfirst, hlength⟩ := hdepth.1
      refine ⟨chain, hchain, fun first hmem => ?_, by omega⟩
      exact List.mem_append_left _ (hfirst first hmem)
    · obtain ⟨chain, hchain, hlength⟩ := hbelow.1
      exact ⟨start :: chain, hchain, by simp, by simp only [List.length_cons]; omega⟩
  · rintro n ⟨chain, hchain, hfirst, rfl⟩
    cases chain with
    | nil => simp
    | cons first others =>
        rcases List.mem_append.mp (hfirst first rfl) with hold | hnew
        · have hle := hdepth.2 ⟨first :: others, hchain, by simpa using hold, rfl⟩
          exact Nat.le_trans hle (Nat.le_max_left _ _)
        · rw [List.mem_singleton.mp hnew] at hchain
          have hle : others.length ≤ below := hbelow.2 ⟨others, hchain, rfl⟩
          exact Nat.le_trans (Nat.succ_le_succ hle) (Nat.le_max_right _ _)

/-- A chain of calls is no longer than all that is inlined. -/
theorem Inlines.chain_length_le (hinlines : Inlines routines source body steps calls) :
    ∀ n ∈ chainsFrom routines (calleesOf body), n ≤ calls := by
  induction hinlines with
  | done => exact fun n hn => chainsFrom_nil.2 hn
  | perform _ ih => exact ih
  | @call _ callee _ routine rest _ _ callsBelow calls hroutine _ _ ihbelow ihrest =>
      rintro n ⟨chain, hchain, hfirst, rfl⟩
      cases chain with
      | nil => simp
      | cons first others =>
          have hstart : first = callee ∨ first ∈ calleesOf rest := by
            simpa using hfirst first rfl
          rcases hstart with rfl | hstart
          · have hle : others.length ≤ callsBelow := by
              apply ihbelow
              rw [← chainsBelow_eq hroutine]
              exact ⟨others, hchain, rfl⟩
            simp only [List.length_cons]
            omega
          · have hle := ihrest _ ⟨first :: others, hchain, by simpa using hstart, rfl⟩
            omega

/-! ### Flattening -/

theorem routines_getElem? (program : Program) (number : Nat) :
    program.routines[number]? = program.operations[number]?.map (·.toRoutine) := by
  simp [Program.routines]

theorem routine_of_operation {program : Program} {operation : Operation}
    (hoperation : program.operations[number]? = some operation) :
    program.routines[number]? = some operation.toRoutine := by
  rw [routines_getElem?, hoperation, Option.map_some]

/-- Inlining a call in front goes on in the operation that is called. -/
theorem Inlines.of_call {program : Program} {source : String} {rest : List Step}
    {steps : List FlatStep} {callee line calls : Nat} {called : Operation}
    (hinlines : Inlines program.routines source (⟨.call callee, line⟩ :: rest) steps calls)
    (hcalled : program.operations[callee]? = some called) :
    ∃ below others callsBelow callsOthers, steps = below ++ others ∧
      Inlines program.routines called.location.source called.body below callsBelow ∧
      Inlines program.routines source rest others callsOthers := by
  cases hinlines with
  | call hroutine hbelow hrest =>
      obtain rfl := Option.some.inj ((routine_of_operation hcalled).symm.trans hroutine)
      exact ⟨_, _, _, _, rfl, hbelow, hrest⟩

/-- Following calls as deep as the list of operations is long inlines each of them. -/
theorem inlineTo_inlinesTo (program : Program) {order : List Nat}
    (hlisted : Listed (callsIn program.routines) [] order)
    (hbound : ∀ n ∈ order, n < program.operations.size) {depth : Nat}
    (hdepth : order.length ≤ depth) :
    ∀ n ∈ order, ∃ calls, InlinesTo program.routines n (program.inlineTo depth n) calls := by
  refine hlisted.depth_induction (motive := fun depth n =>
    ∃ calls, InlinesTo program.routines n (program.inlineTo depth n) calls)
    (fun depth n hn hbelow => ?_) hdepth
  have hsize := hbound n hn
  have hoperation := Array.getElem?_eq_getElem hsize
  have hroutine := routine_of_operation hoperation
  obtain ⟨calls, hinlines⟩ := Inlines.of_callees (program.inlineTo depth)
    program.operations[n].location.source
    (fun callee hcallee => hbelow callee
      (callsTo_callsIn_iff.mpr ((calls_iff_mem hroutine).mpr hcallee)))
  refine ⟨calls, _, hroutine, ?_⟩
  rw [inlineTo, hoperation]
  exact hinlines

end GateBench.Program
