import GateBench.Proofs.Compilation
import Mathlib.Data.List.Sort

/-!
Operations up to their numbers.  Two lists of operations are renumberings of each other when they
hold the same operations with every callee read as its name.  Then operations of one name inline to
the same steps, have chains of calls of the same lengths, and so have the same figures.
-/

namespace GateBench.Program

/-- What one statement does, its callee read as a name. -/
inductive NamedAction where
  | perform (instruction : Instruction)
  | call (callee : Option QualifiedName)
deriving DecidableEq

/-- A step, its callee read as a name. -/
structure NamedStep where
  action : NamedAction
  line : Nat
deriving DecidableEq

/-- An operation without its number, its callees read as names. -/
structure NamedRoutine where
  name : QualifiedName
  isEntry : Bool
  location : Location
  body : List NamedStep
deriving DecidableEq

/-- Read the callee of an action as a name. -/
def StepAction.named (nameOf : Nat → Option QualifiedName) : StepAction → NamedAction
  | .perform instruction => .perform instruction
  | .call callee => .call (nameOf callee)

/-- Read the callee of a step as a name. -/
def Step.named (nameOf : Nat → Option QualifiedName) (step : Step) : NamedStep :=
  ⟨step.action.named nameOf, step.line⟩

/-- Read the callees of a routine as names. -/
def Routine.named (nameOf : Nat → Option QualifiedName) (routine : Routine) : NamedRoutine :=
  ⟨routine.name, routine.isEntry, routine.location, routine.body.map (·.named nameOf)⟩

/-- The name of the operation of a number. -/
def nameIn (routines : Array Routine) (number : Nat) : Option QualifiedName :=
  routines[number]?.map (·.name)

/-- All routines, their callees read as names. -/
def namedRoutines (routines : Array Routine) : List NamedRoutine :=
  routines.toList.map (·.named (nameIn routines))

/-- Two lists of routines, each under different names and closed under calls, that are the same but
for the numbers of their operations. -/
structure Renumbers (routines routines' : Array Routine) : Prop where
  same : (namedRoutines routines).Perm (namedRoutines routines')
  distinct : (routines.toList.map (·.name)).Nodup
  closed : ∀ routine ∈ routines, ∀ callee ∈ routine.callees, callee < routines.size
  closed' : ∀ routine ∈ routines', ∀ callee ∈ routine.callees, callee < routines'.size

/-- The operations of two numbers have the same name. -/
def Meet (routines routines' : Array Routine) (number number' : Nat) : Prop :=
  ∃ name, nameIn routines number = some name ∧ nameIn routines' number' = some name

variable {routines routines' : Array Routine} {number number' : Nat} {routine routine' : Routine}
  {source : String} {body body' : List Step} {steps : List FlatStep} {followed : Nat}
  {figures : Figures}

theorem namedRoutines_names (routines : Array Routine) :
    (namedRoutines routines).map (·.name) = routines.toList.map (·.name) := by
  simp [namedRoutines, Routine.named]

theorem mem_namedRoutines {named : NamedRoutine} :
    named ∈ namedRoutines routines ↔
      ∃ (number : Nat) (routine : Routine), routines[number]? = some routine ∧
        routine.named (nameIn routines) = named := by
  simp only [namedRoutines, List.mem_map, Array.mem_toList_iff, Array.mem_iff_getElem?]
  constructor
  · rintro ⟨routine, ⟨number, hroutine⟩, hnamed⟩
    exact ⟨number, routine, hroutine, hnamed⟩
  · rintro ⟨number, routine, hroutine, hnamed⟩
    exact ⟨routine, ⟨number, hroutine⟩, hnamed⟩

theorem nameIn_eq_some_iff {name : QualifiedName} :
    nameIn routines number = some name ↔
      ∃ routine, routines[number]? = some routine ∧ routine.name = name :=
  Option.map_eq_some_iff

theorem Step.named_eq_perform {nameOf : Nat → Option QualifiedName} {step : Step}
    {instruction : Instruction} {line : Nat}
    (hnamed : step.named nameOf = ⟨.perform instruction, line⟩) :
    step = ⟨.perform instruction, line⟩ := by
  obtain ⟨action, _⟩ := step
  obtain ⟨haction, rfl⟩ := NamedStep.mk.inj hnamed
  cases action with
  | perform => rw [NamedAction.perform.inj haction]
  | call => nomatch haction

theorem Step.named_eq_call {nameOf : Nat → Option QualifiedName} {step : Step}
    {name : Option QualifiedName} {line : Nat} (hnamed : step.named nameOf = ⟨.call name, line⟩) :
    ∃ callee, step = ⟨.call callee, line⟩ ∧ nameOf callee = name := by
  obtain ⟨action, _⟩ := step
  obtain ⟨haction, rfl⟩ := NamedStep.mk.inj hnamed
  cases action with
  | perform => nomatch haction
  | call callee => exact ⟨callee, rfl, NamedAction.call.inj haction⟩

namespace Renumbers

theorem symm (hsame : Renumbers routines routines') : Renumbers routines' routines where
  same := hsame.same.symm
  distinct := by
    rw [← namedRoutines_names, ← (hsame.same.map _).nodup_iff, namedRoutines_names]
    exact hsame.distinct
  closed := hsame.closed'
  closed' := hsame.closed

theorem number_eq (hsame : Renumbers routines routines') {other : Nat} {name : QualifiedName}
    (hfirst : nameIn routines number = some name) (hsecond : nameIn routines other = some name) :
    other = number := by
  have hread : ∀ number, (routines.toList.map (·.name))[number]? = nameIn routines number := by
    simp [nameIn]
  exact (getElem?_eq_some_iff_of_nodup hsame.distinct ((hread _).trans hfirst)).mp
    ((hread _).trans hsecond)

/-- Every operation has a counterpart: one that is the same but for numbers. -/
theorem exists_same (hsame : Renumbers routines routines')
    (hroutine : routines[number]? = some routine) :
    ∃ (number' : Nat) (routine' : Routine), routines'[number']? = some routine' ∧
      routine'.named (nameIn routines') = routine.named (nameIn routines) := by
  have hmem := mem_namedRoutines.mpr ⟨number, routine, hroutine, rfl⟩
  exact mem_namedRoutines.mp (hsame.same.mem_iff.mp hmem)

/-- Operations of one name are the same but for numbers. -/
theorem named_eq (hsame : Renumbers routines routines')
    (hroutine : routines[number]? = some routine)
    (hroutine' : routines'[number']? = some routine') (hname : routine.name = routine'.name) :
    routine'.named (nameIn routines') = routine.named (nameIn routines) := by
  obtain ⟨other, found, hfound, hnamed⟩ := hsame.exists_same hroutine
  have hfoundName : nameIn routines' other = some routine'.name := by
    rw [nameIn, hfound, Option.map_some, ← hname]
    exact congrArg (fun named => some named.name) hnamed
  have hnumber := hsame.symm.number_eq (by rw [nameIn, hroutine', Option.map_some]) hfoundName
  obtain rfl := hnumber
  obtain rfl := Option.some.inj (hfound.symm.trans hroutine')
  exact hnamed

/-- A body inlines to the same steps whichever numbers its callees have. -/
theorem inlines (hsame : Renumbers routines routines')
    (hinlines : Inlines routines source body steps followed)
    (hbody : body'.map (·.named (nameIn routines')) = body.map (·.named (nameIn routines))) :
    Inlines routines' source body' steps followed := by
  induction hinlines generalizing body' with
  | done =>
      obtain rfl := List.map_eq_nil_iff.mp hbody
      exact .done _
  | perform _ ih =>
      obtain ⟨step', rest', rfl, hstep, hrest⟩ := List.map_eq_cons_iff.mp hbody
      obtain rfl := Step.named_eq_perform hstep
      exact .perform (ih hrest)
  | @call source callee line routine rest _ _ _ _ hroutine _ _ ihbelow ihrest =>
      obtain ⟨step', rest', rfl, hstep, hrest⟩ := List.map_eq_cons_iff.mp hbody
      obtain ⟨callee', rfl, hcallee⟩ := Step.named_eq_call hstep
      have hname : nameIn routines callee = some routine.name := by
        rw [nameIn, hroutine, Option.map_some]
      obtain ⟨routine', hroutine', hsameName⟩ := nameIn_eq_some_iff.mp (hcallee.trans hname)
      have hnamed := hsame.named_eq hroutine hroutine' hsameName.symm
      have hlocation : routine'.location = routine.location := congrArg NamedRoutine.location hnamed
      have hbelow := ihbelow (congrArg NamedRoutine.body hnamed)
      rw [← hlocation] at hbelow
      exact .call hroutine' hbelow (ihrest hrest)

theorem inlinesTo (hsame : Renumbers routines routines')
    (hmeet : Meet routines routines' number number')
    (hinlines : InlinesTo routines number steps followed) :
    InlinesTo routines' number' steps followed := by
  obtain ⟨name, hname, hname'⟩ := hmeet
  obtain ⟨routine, hroutine, hbody⟩ := hinlines
  obtain ⟨routine', hroutine', rfl⟩ := nameIn_eq_some_iff.mp hname'
  rw [nameIn, hroutine, Option.map_some, Option.some.injEq] at hname
  have hnamed := hsame.named_eq hroutine hroutine' hname
  have hlocation : routine'.location = routine.location := congrArg NamedRoutine.location hnamed
  refine ⟨routine', hroutine', ?_⟩
  rw [hlocation]
  exact hsame.inlines hbody (congrArg NamedRoutine.body hnamed)

/-- Every call has a counterpart. -/
theorem exists_calls (hsame : Renumbers routines routines')
    (hmeet : Meet routines routines' number number') {callee : Nat}
    (hcalls : Calls routines number callee) :
    ∃ callee', Meet routines routines' callee callee' ∧ Calls routines' number' callee' := by
  obtain ⟨name, hname, hname'⟩ := hmeet
  obtain ⟨routine, hroutine, hcallee⟩ := hcalls
  obtain ⟨routine', hroutine', rfl⟩ := nameIn_eq_some_iff.mp hname'
  rw [nameIn, hroutine, Option.map_some, Option.some.injEq] at hname
  have hnamed := congrArg NamedRoutine.body (hsame.named_eq hroutine hroutine' hname)
  have hbound := hsame.closed routine (Array.mem_of_getElem? hroutine) callee hcallee
  have hcalleeName : nameIn routines callee = some routines[callee].name := by
    rw [nameIn, Array.getElem?_eq_getElem hbound, Option.map_some]
  obtain ⟨step, hstep, hcalled⟩ := List.mem_filterMap.mp hcallee
  obtain ⟨action, line⟩ := step
  cases action with
  | perform => nomatch hcalled
  | call called =>
      obtain rfl := Option.some.inj hcalled
      have hmem : Step.named (nameIn routines) ⟨.call called, line⟩ ∈
          (routine.named (nameIn routines)).body := List.mem_map_of_mem hstep
      obtain ⟨step', hstep', hstepNamed⟩ := List.mem_map.mp (hnamed ▸ hmem)
      obtain ⟨callee', rfl, hcallee'⟩ := Step.named_eq_call hstepNamed
      exact ⟨callee', ⟨_, hcalleeName, hcallee'.trans hcalleeName⟩, routine', hroutine',
        List.mem_filterMap.mpr ⟨_, hstep', rfl⟩⟩

theorem exists_isChain (hsame : Renumbers routines routines') {chain : List Nat}
    (hmeet : Meet routines routines' number number')
    (hchain : (number :: chain).IsChain (Calls routines)) :
    ∃ chain' : List Nat, (number' :: chain').IsChain (Calls routines') ∧
      chain'.length = chain.length := by
  induction chain generalizing number number' with
  | nil => exact ⟨[], .singleton _, rfl⟩
  | cons callee others ih =>
      obtain ⟨hcalls, hothers⟩ := List.isChain_cons_cons.mp hchain
      obtain ⟨callee', hcallee, hcalls'⟩ := hsame.exists_calls hmeet hcalls
      obtain ⟨others', hothers', hlength⟩ := ih hcallee hothers
      exact ⟨callee' :: others', hothers'.cons_cons hcalls', congrArg (· + 1) hlength⟩

theorem chainsBelow_subset (hsame : Renumbers routines routines')
    (hmeet : Meet routines routines' number number') :
    chainsBelow routines number ⊆ chainsBelow routines' number' := by
  rintro depth ⟨chain, hchain, rfl⟩
  exact hsame.exists_isChain hmeet hchain

theorem meet_symm (hmeet : Meet routines routines' number number') :
    Meet routines' routines number' number := by
  obtain ⟨name, hname, hname'⟩ := hmeet
  exact ⟨name, hname', hname⟩

theorem chainsBelow_eq (hsame : Renumbers routines routines')
    (hmeet : Meet routines routines' number number') :
    chainsBelow routines' number' = chainsBelow routines number :=
  (hsame.symm.chainsBelow_subset (meet_symm hmeet)).antisymm (hsame.chainsBelow_subset hmeet)

/-- The figures of an operation are those of its counterpart. -/
theorem areOf (hsame : Renumbers routines routines')
    (hmeet : Meet routines routines' number number') (hfigures : figures.AreOf routines number) :
    figures.AreOf routines' number' := by
  obtain ⟨steps, followed, depth, hinlines, hdepth, htell⟩ := hfigures
  exact ⟨steps, followed, depth, hsame.inlinesTo hmeet hinlines,
    (hsame.chainsBelow_eq hmeet).symm ▸ hdepth, htell⟩

/-- Calls that lead from one operation to another lead from its counterpart to that of the other. -/
theorem exists_transGen (hsame : Renumbers routines routines')
    (hmeet : Meet routines routines' number number') {reached : Nat}
    (hreached : Relation.TransGen (Calls routines) number reached) :
    ∃ reached', Meet routines routines' reached reached' ∧
      Relation.TransGen (Calls routines') number' reached' := by
  induction hreached with
  | single hcalls =>
      obtain ⟨callee', hcallee, hcalls'⟩ := hsame.exists_calls hmeet hcalls
      exact ⟨callee', hcallee, .single hcalls'⟩
  | tail _ hcalls ih =>
      obtain ⟨middle, hmiddle, hleads⟩ := ih
      obtain ⟨callee', hcallee, hcalls'⟩ := hsame.exists_calls hmiddle hcalls
      exact ⟨callee', hcallee, hleads.tail hcalls'⟩

theorem acyclic (hsame : Renumbers routines routines')
    (hacyclic : ∀ number, ¬ Relation.TransGen (Calls routines) number number) :
    ∀ number, ¬ Relation.TransGen (Calls routines') number number := by
  intro number' hcycle
  obtain ⟨_, ⟨routine', hroutine', _⟩, _⟩ := Relation.TransGen.head'_iff.mp hcycle
  obtain ⟨number, routine, hroutine, hnamed⟩ := hsame.symm.exists_same hroutine'
  have hname' : nameIn routines' number' = some routine'.name := by
    rw [nameIn, hroutine', Option.map_some]
  have hname : nameIn routines number = some routine'.name := by
    rw [nameIn, hroutine, Option.map_some]
    exact congrArg (fun named => some named.name) hnamed
  obtain ⟨reached, ⟨name, hreached', hreached⟩, hleads⟩ :=
    hsame.symm.exists_transGen ⟨_, hname', hname⟩ hcycle
  -- The counterpart of where the cycle ends has the name of where it starts, so it is the same.
  have hreachedName : nameIn routines reached = some routine'.name := by
    rw [hreached, ← hreached', hname']
  rw [hsame.number_eq hname hreachedName] at hleads
  exact hacyclic number hleads

end Renumbers

/-- An operation has one set of figures. -/
theorem Figures.AreOf.unique {figures' : Figures} (hfirst : figures.AreOf routines number)
    (hsecond : figures'.AreOf routines number) : figures = figures' := by
  obtain ⟨steps, followed, depth, hinlines, hdepth, htell⟩ := hfirst
  obtain ⟨steps', followed', depth', hinlines', hdepth', htell'⟩ := hsecond
  obtain ⟨rfl, rfl⟩ := hinlines.unique hinlines'
  obtain rfl := hdepth.unique hdepth'
  have htouched : figures.touched = figures'.touched :=
    htell.ascending.eq_of_mem_iff htell'.ascending fun qubit => by
      rw [htell.touched, htell'.touched]
  obtain ⟨touched, _, _⟩ := figures
  obtain ⟨touched', _, _⟩ := figures'
  exact congr (congrArg₂ Figures.mk htouched (htell.steps.trans htell'.steps.symm))
    (htell.callDepth.trans htell'.callDepth.symm)

end GateBench.Program
