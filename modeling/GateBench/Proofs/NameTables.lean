import GateBench.Proofs.CheckedLookups
import GateBench.Proofs.ReadNames
import Std.Data.HashMap.Lemmas

/-!
Resolution through tables.  Operations are declared one after the other, with tables of their
numbers by dotted form, by simple name and by declaration; then each body is resolved and attached
to the operation of its declaration, counted in a second loop.  All lookups by number may fail.
While simple names have no dots, this does what `resolve` does with a list of names.
-/

namespace GateBench.Program

open GateBench.Syntax

/-- The operations declared so far, and the tables of their numbers: by simple name, by dotted form,
and for each declaration, none for one that is repeated. -/
structure Resolver where
  operations : Array Routine
  byName : Std.HashMap String (List Nat)
  byQualified : Std.HashMap String Nat
  numbers : Array (Option Nat)
  errors : List ProgramError

namespace Resolver

/-- No declarations. -/
def empty : Resolver :=
  ⟨#[], ∅, ∅, #[], []⟩

/-- Declare one operation, without its body. -/
def declare (resolver : Resolver) (file : SourceFile) (declaration : Declaration) : Resolver :=
  let name : QualifiedName := ⟨file.scope, declaration.name⟩
  let location : Location := ⟨file.name, declaration.line⟩
  if resolver.byQualified.contains name.text then
    { resolver with
      numbers := resolver.numbers.push none
      errors := resolver.errors ++ [.located location (.duplicateOperation name)] }
  else
    let number := resolver.operations.size
    { operations := resolver.operations.push ⟨name, declaration.isEntry, location, []⟩
      byName := resolver.byName.insert name.name (resolver.byName.getD name.name [] ++ [number])
      byQualified := resolver.byQualified.insert name.text number
      numbers := resolver.numbers.push (some number)
      errors := resolver.errors }

/-- Declare the operations of all files. -/
def declareAll (files : List SourceFile) : Resolver :=
  files.foldl (fun resolver file =>
    file.declarations.foldl (fun resolver declaration => resolver.declare file declaration)
      resolver) empty

/-- Look the target of a call up. -/
def callee? (resolver : Resolver) (scope : Option String) (target : QualifiedName) :
    Option (Except LocatedCause Nat) :=
  if target.scope.isSome then
    match resolver.byQualified[target.text]? with
    | some callee => some (.ok callee)
    | none => some (.error (.unknownOperation target))
  else do
    let candidates := resolver.byName.getD target.name []
    let own ← candidates.findM? fun number =>
      resolver.operations[number]?.map fun routine => decide (routine.name.scope = scope)
    match own with
    | some callee => some (.ok callee)
    | none =>
      match candidates with
      | [] => some (.error (.unknownOperation target))
      | [callee] => some (.ok callee)
      | several => do
        let names ← several.mapM fun number => resolver.operations[number]?.map (·.name)
        return .error (.ambiguousOperation target names)

/-- Resolve what one statement does. -/
def action? (resolver : Resolver) (scope : Option String) :
    Action → Option (Except LocatedCause StepAction)
  | .gate call => some ((resolveGate call).map .perform)
  | .measure qubit => some (.ok (.perform (.measure qubit)))
  | .reset qubit => some (.ok (.perform (.reset qubit)))
  | .call target => (resolver.callee? scope target).map (·.map .call)

/-- Resolve statements one after the other: the steps behind those so far, and the errors. -/
def body? (resolver : Resolver) (file : SourceFile) (steps : List Step)
    (errors : List ProgramError) : List Statement → Option (List Step × List ProgramError)
  | [] => some (steps, errors)
  | statement :: others => do
    match ← resolver.action? file.scope statement.action with
    | .ok action => resolver.body? file (steps ++ [⟨action, statement.line⟩]) errors others
    | .error cause =>
      resolver.body? file steps (errors ++ [.located ⟨file.name, statement.line⟩ cause]) others

/-- Resolve the body of the declaration of an index, and attach it to its operation. -/
def attach? (resolver : Resolver) (file : SourceFile) (declaration : Declaration) (index : Nat) :
    Option Resolver := do
  match ← resolver.numbers[index]? with
  | none => some resolver
  | some number =>
    let (body, errors) ← resolver.body? file [] resolver.errors declaration.body
    let routine ← resolver.operations[number]?
    let operations ← put? resolver.operations number { routine with body }
    return { resolver with operations, errors }

end Resolver

/-- The declarations of all files in order, each with its file. -/
def declarationsIn (files : List SourceFile) : List (SourceFile × Declaration) :=
  files.flatMap fun file => file.declarations.map fun declaration => (file, declaration)

/-- Resolve the operations of all files through tables. -/
def resolveByTables? (files : List SourceFile) :
    Option (Except (List ProgramError) (List Routine)) := do
  let resolver ← (declarationsIn files).zipIdx.foldlM
    (fun resolver entry => resolver.attach? entry.1.1 entry.1.2 entry.2)
    (Resolver.declareAll files)
  return if resolver.errors = [] then .ok resolver.operations.toList else .error resolver.errors

/-! ### What the tables tell -/

/-- The tables of a resolver tell the numbers that operations of different names have. -/
structure Resolver.Knows (resolver : Resolver) (names : List QualifiedName) : Prop where
  operations : resolver.operations.toList.map (·.name) = names
  distinct : names.Nodup
  dotFree : ∀ name ∈ names, '.' ∉ name.name.toList
  byQualified : ∀ name : QualifiedName, '.' ∉ name.name.toList →
    resolver.byQualified[name.text]? = names.idxOf? name
  byName : ∀ simple, resolver.byName.getD simple [] = numbersOf names (·.name = simple)

variable {resolver : Resolver} {names earlier : List QualifiedName} {scope : Option String}
  {target name : QualifiedName} {file : SourceFile} {declaration : Declaration} {number : Nat}
  {files : List SourceFile}

theorem numbersOf_concat (names : List QualifiedName) (name : QualifiedName)
    (wanted : QualifiedName → Bool) :
    numbersOf (names ++ [name]) wanted =
      numbersOf names wanted ++ if wanted name then [names.length] else [] := by
  have hbefore : ∀ number ∈ List.range names.length,
      (names ++ [name])[number]?.any wanted = names[number]?.any wanted := by
    intro number hnumber
    rw [List.getElem?_append_left (List.mem_range.mp hnumber)]
  simp only [numbersOf, List.length_append, List.length_singleton, List.range_succ,
    List.filter_append, List.filter_congr hbefore]
  cases hname : wanted name <;> simp [hname]

theorem idxOf?_concat {name : QualifiedName} (hfresh : name ∉ names) (other : QualifiedName) :
    (names ++ [name]).idxOf? other =
      if name = other then some names.length else names.idxOf? other := by
  simp only [List.idxOf?, List.findIdx?_append]
  by_cases heq : name = other
  · subst heq
    have hnone := List.idxOf?_eq_none_iff.mpr hfresh
    simp only [List.idxOf?] at hnone
    simp [hnone]
  · simp [heq]

/-- Among the operations of a simple name, at most one is in a given namespace. -/
theorem find?_numbersOf (hdistinct : names.Nodup) (scope : Option String) (simple : String) :
    ((numbersOf names (·.name = simple)).find? fun number =>
        names[number]?.any (·.scope = scope)) = names.idxOf? ⟨scope, simple⟩ := by
  have hown : ∀ number : Nat, number ∈ numbersOf names (·.name = simple) ∧
      names[number]?.any (·.scope = scope) ↔ names[number]? = some ⟨scope, simple⟩ := by
    intro number
    rw [mem_numbersOf]
    constructor
    · rintro ⟨⟨⟨found, _⟩, hname, hsimple⟩, hscope⟩
      simp_all
    · intro hname
      exact ⟨⟨_, hname, decide_eq_true rfl⟩, by simp [hname]⟩
  apply Option.ext
  intro number
  rw [idxOf?_eq_some_iff_getElem? hdistinct]
  constructor
  · intro hfind
    have hscope := List.find?_some hfind
    exact (hown number).mp ⟨List.mem_of_find?_eq_some hfind, hscope⟩
  · intro hname
    obtain ⟨hmem, hscope⟩ := (hown number).mpr hname
    generalize hfind : List.find? _ _ = result
    cases result with
    | none => exact absurd hscope (List.find?_eq_none.mp hfind number hmem)
    | some found =>
        have hscope := List.find?_some hfind
        have hfound := (hown found).mp ⟨List.mem_of_find?_eq_some hfind, hscope⟩
        rw [(getElem?_eq_some_iff_of_nodup hdistinct hname).mp hfound]

namespace Resolver.Knows

theorem getElem?_operations (hknows : resolver.Knows names) (number : Nat) :
    resolver.operations[number]?.map (·.name) = names[number]? := by
  rw [← hknows.operations, List.getElem?_map, Array.getElem?_toList]

theorem size_operations (hknows : resolver.Knows names) :
    resolver.operations.size = names.length := by
  rw [← hknows.operations, List.length_map, Array.length_toList]

theorem mapM_operations (hknows : resolver.Knows names) {numbers : List Nat}
    (hnumbers : ∀ number ∈ numbers, number < names.length) :
    (numbers.mapM fun number => resolver.operations[number]?.map (·.name)) =
      some (numbers.filterMap (names[·]?)) := by
  have hread : (fun number : Nat => resolver.operations[number]?.map (·.name)) = (names[·]?) :=
    funext hknows.getElem?_operations
  rw [hread]
  exact mapM_eq_filterMap fun number hnumber =>
    ⟨_, List.getElem?_eq_getElem (hnumbers number hnumber)⟩

/-- A name is declared already if its dotted form has a number. -/
theorem contains_iff (hknows : resolver.Knows names) (hname : '.' ∉ name.name.toList) :
    resolver.byQualified.contains name.text ↔ name ∈ names := by
  rw [Std.HashMap.contains_eq_isSome_getElem?, hknows.byQualified name hname, List.isSome_idxOf?]

/-! ### Calls -/

theorem findM?_own (hknows : resolver.Knows names) (scope : Option String) (simple : String) :
    ((numbersOf names (·.name = simple)).findM? fun number =>
        resolver.operations[number]?.map fun routine => decide (routine.name.scope = scope)) =
      some (names.idxOf? ⟨scope, simple⟩) := by
  have hlookup : ∀ number ∈ numbersOf names (·.name = simple),
      (resolver.operations[number]?.map fun routine => decide (routine.name.scope = scope)) =
        some (names[number]?.any (·.scope = scope)) := by
    intro number hnumber
    obtain ⟨name, hname, -⟩ := mem_numbersOf.mp hnumber
    have hfound := hknows.getElem?_operations number
    rw [hname, Option.map_eq_some_iff] at hfound
    obtain ⟨routine, hroutine, rfl⟩ := hfound
    simp [hroutine, hname]
  rw [findM?_eq_some hlookup, find?_numbersOf hknows.distinct]

/-- A call means the same operation in the tables as in the list of names. -/
theorem callee?_eq (hknows : resolver.Knows names) (scope : Option String)
    (htarget : '.' ∉ target.name.toList) :
    resolver.callee? scope target = some (resolveCall names scope target) := by
  unfold callee? resolveCall
  by_cases hdotted : target.scope.isSome
  · rw [if_pos hdotted, if_pos hdotted, hknows.byQualified target htarget]
    cases names.idxOf? target <;> rfl
  · rw [if_neg hdotted, if_neg hdotted]
    simp only [hknows.byName, hknows.findM?_own, Option.bind_eq_bind, Option.bind_some]
    cases names.idxOf? ⟨scope, target.name⟩ with
    | some callee => rfl
    | none =>
        have hbound : ∀ number ∈ numbersOf names (·.name = target.name), number < names.length :=
          fun number hnumber => List.mem_range.mp (List.mem_filter.mp hnumber).1
        have hnamed := hknows.mapM_operations hbound
        rcases hnumbers : numbersOf names (·.name = target.name) with
          _ | ⟨first, _ | ⟨second, others⟩⟩
        · rfl
        · rfl
        · rw [hnumbers] at hnamed
          simp only [hnamed]
          rfl

theorem action?_eq (hknows : resolver.Knows names) (scope : Option String) {action : Action}
    (htargets : ∀ target, action = .call target → '.' ∉ target.name.toList) :
    resolver.action? scope action = some (resolveAction names scope action) := by
  cases action with
  | call target =>
      rw [action?, hknows.callee?_eq scope (htargets target rfl)]
      rfl
  | gate | measure | reset => rfl

end Resolver.Knows

/-! ### Bodies -/

/-- What one statement resolves to, or the error for it. -/
def stepOf (names : List QualifiedName) (scope : Option String) (source : String)
    (statement : Statement) : Except ProgramError Step :=
  ((resolveAction names scope statement.action).map fun action =>
      Step.mk action statement.line).mapError fun cause =>
    .located ⟨source, statement.line⟩ cause

/-- The steps of a declared operation, without those of wrong statements. -/
def stepsOf (names : List QualifiedName) (declared : Declared) : List Step :=
  (splitResults (declared.body.map
    (stepOf names declared.name.scope declared.location.source))).2

/-- The errors for wrong statements of a declared operation. -/
def bodyErrorsOf (names : List QualifiedName) (declared : Declared) : List ProgramError :=
  (splitResults (declared.body.map
    (stepOf names declared.name.scope declared.location.source))).1

/-- A declared operation with the body that it is given. -/
def Declared.withBody (declared : Declared) (body : List Step) : Routine :=
  ⟨declared.name, declared.isEntry, declared.location, body⟩

/-- The errors for repeated declarations, and then those for wrong statements of the others. -/
def resolverErrors (split : List Declared × List Declared) : List ProgramError :=
  (split.2.map fun declared =>
      ProgramError.located declared.location (.duplicateOperation declared.name)) ++
    split.1.flatMap (bodyErrorsOf (split.1.map (·.name)))

theorem splitResults_ok {ε α : Type} (value : α) (results : List (Except ε α)) :
    splitResults (.ok value :: results) =
      ((splitResults results).1, value :: (splitResults results).2) := rfl

theorem splitResults_error {ε α : Type} (error : ε) (results : List (Except ε α)) :
    splitResults (.error error :: results) =
      (error :: (splitResults results).1, (splitResults results).2) := rfl

theorem Resolver.Knows.body?_eq (hknows : resolver.Knows names) {statements : List Statement}
    (htargets : ∀ statement ∈ statements, ∀ target, statement.action = .call target →
      '.' ∉ target.name.toList) (steps : List Step) (errors : List ProgramError) :
    resolver.body? file steps errors statements =
      some (steps ++ (splitResults (statements.map (stepOf names file.scope file.name))).2,
        errors ++ (splitResults (statements.map (stepOf names file.scope file.name))).1) := by
  induction statements generalizing steps errors with
  | nil => simp [Resolver.body?, splitResults]
  | cons statement others ih =>
      obtain ⟨htarget, hothers⟩ := List.forall_mem_cons.mp htargets
      rw [Resolver.body?, hknows.action?_eq file.scope htarget, Option.bind_eq_bind,
        Option.bind_some, List.map_cons]
      cases haction : resolveAction names file.scope statement.action with
      | ok action =>
          have hstep : stepOf names file.scope file.name statement =
              .ok ⟨action, statement.line⟩ := by
            rw [stepOf, haction]
            rfl
          rw [hstep, splitResults_ok]
          simp only [ih hothers, List.append_assoc, List.singleton_append]
      | error cause =>
          have hstep : stepOf names file.scope file.name statement =
              .error (.located ⟨file.name, statement.line⟩ cause) := by
            rw [stepOf, haction]
            rfl
          rw [hstep, splitResults_error]
          simp only [ih hothers, List.append_assoc, List.singleton_append]

/-- A body resolves unless it has errors. -/
theorem resolveBody_eq (names : List QualifiedName) (declared : Declared) :
    resolveBody names declared =
      if bodyErrorsOf names declared = [] then .ok (declared.withBody (stepsOf names declared))
      else .error (bodyErrorsOf names declared) := by
  unfold resolveBody bodyErrorsOf stepsOf
  extract_lets results
  have hresults : results =
      declared.body.map (stepOf names declared.name.scope declared.location.source) := by
    apply List.map_congr_left
    intro statement _
    unfold stepOf
    cases resolveAction names declared.name.scope statement.action <;> rfl
  rw [← hresults]
  rcases splitResults results with ⟨errors, steps⟩
  cases errors <;> rfl

theorem splitResults_bodies_fst (names : List QualifiedName) (kept : List Declared) :
    (splitResults (kept.map (resolveBody names))).1.flatten =
      kept.flatMap (bodyErrorsOf names) := by
  induction kept with
  | nil => rfl
  | cons first others ih =>
      rw [List.map_cons, List.flatMap_cons, resolveBody_eq]
      split
      · rename_i hnone
        rw [splitResults_ok, hnone, List.nil_append, ← ih]
      · rw [splitResults_error, List.flatten_cons, ih]

theorem splitResults_bodies_snd {kept : List Declared}
    (hnone : kept.flatMap (bodyErrorsOf names) = []) :
    (splitResults (kept.map (resolveBody names))).2 =
      kept.map fun declared => declared.withBody (stepsOf names declared) := by
  induction kept with
  | nil => rfl
  | cons first others ih =>
      rw [List.flatMap_cons, List.append_eq_nil_iff] at hnone
      rw [List.map_cons, List.map_cons, resolveBody_eq, if_pos hnone.1, splitResults_ok,
        ih hnone.2]

/-- Files resolve to all declared operations with their bodies, or to the errors for repeated
declarations and then those for wrong statements. -/
theorem resolve_eq (files : List SourceFile) :
    resolve files =
      if resolverErrors (splitRepeated [] (declaredIn files)) = [] then
        .ok ((splitRepeated [] (declaredIn files)).1.map fun declared => declared.withBody
          (stepsOf ((splitRepeated [] (declaredIn files)).1.map (·.name)) declared))
      else .error (resolverErrors (splitRepeated [] (declaredIn files))) := by
  unfold resolve
  rcases splitRepeated [] (declaredIn files) with ⟨kept, repeated⟩
  have herrors := splitResults_bodies_fst (kept.map (·.name)) kept
  have hroutines := @splitResults_bodies_snd (kept.map (·.name)) kept
  rcases hresults : splitResults (kept.map (resolveBody (kept.map (·.name)))) with
    ⟨bodyErrors, routines⟩
  rw [hresults] at herrors hroutines
  have hall : (repeated.map fun declared =>
      ProgramError.located declared.location (.duplicateOperation declared.name)) ++
        bodyErrors.flatten = resolverErrors (kept, repeated) := by
    rw [show bodyErrors.flatten = _ from herrors]
    rfl
  simp only [hresults, hall]
  split
  · rename_i hnone
    rw [if_pos hnone]
    exact congrArg Except.ok (hroutines (List.append_eq_nil_iff.mp hnone).2)
  · rename_i errors hsome
    rw [if_neg hsome]

/-! ### Declarations -/

/-- A declaration of a file, as an operation in its namespace. -/
def declaredAs (file : SourceFile) (declaration : Declaration) : Declared :=
  ⟨⟨file.scope, declaration.name⟩, declaration.isEntry, ⟨file.name, declaration.line⟩,
    declaration.body⟩

/-- The numbers of declarations: those that name an operation first are counted from `count`. -/
def numbersFrom (count : Nat) (earlier : List QualifiedName) : List Declared → List (Option Nat)
  | [] => []
  | first :: others =>
    if first.name ∈ earlier then none :: numbersFrom count earlier others
    else some count :: numbersFrom (count + 1) (first.name :: earlier) others

/-- What a resolver becomes when it is told more declarations, given those that name an operation
first and those that repeat one. -/
structure Resolver.Declares (resolver : Resolver) (names : List QualifiedName)
    (declared : List Declared) (earlier : List QualifiedName) (after : Resolver) : Prop where
  knows : after.Knows (names ++ (splitRepeated earlier declared).1.map (·.name))
  operations : after.operations.toList =
    resolver.operations.toList ++ (splitRepeated earlier declared).1.map (·.withBody [])
  numbers : after.numbers.toList =
    resolver.numbers.toList ++ numbersFrom names.length earlier declared
  errors : after.errors = resolver.errors ++ (splitRepeated earlier declared).2.map fun declared =>
    ProgramError.located declared.location (.duplicateOperation declared.name)

namespace Resolver.Knows

theorem declare_repeated (hknows : resolver.Knows names) (hname : '.' ∉ declaration.name.toList)
    (hrepeated : (declaredAs file declaration).name ∈ names) :
    resolver.declare file declaration = { resolver with
      numbers := resolver.numbers.push none
      errors := resolver.errors ++ [.located (declaredAs file declaration).location
        (.duplicateOperation (declaredAs file declaration).name)] } :=
  if_pos ((hknows.contains_iff hname).mpr hrepeated)

theorem declare_fresh (hknows : resolver.Knows names) (hname : '.' ∉ declaration.name.toList)
    (hfresh : (declaredAs file declaration).name ∉ names) :
    resolver.declare file declaration =
      { operations := resolver.operations.push ((declaredAs file declaration).withBody [])
        byName := resolver.byName.insert declaration.name
          (resolver.byName.getD declaration.name [] ++ [resolver.operations.size])
        byQualified := resolver.byQualified.insert (declaredAs file declaration).name.text
          resolver.operations.size
        numbers := resolver.numbers.push (some resolver.operations.size)
        errors := resolver.errors } :=
  if_neg fun hcontains => hfresh ((hknows.contains_iff hname).mp hcontains)

/-- A fresh name gets the next number. -/
theorem knows_fresh (hknows : resolver.Knows names) (hname : '.' ∉ declaration.name.toList)
    (hfresh : (declaredAs file declaration).name ∉ names) :
    (resolver.declare file declaration).Knows (names ++ [(declaredAs file declaration).name]) := by
  rw [hknows.declare_fresh hname hfresh]
  refine ⟨?operations, ?distinct, ?dotFree, ?byQualified, ?byName⟩
  case operations =>
    rw [Array.toList_push, List.map_append, hknows.operations]
    rfl
  case distinct =>
    apply List.nodup_append.mpr
    refine ⟨hknows.distinct, List.nodup_singleton _, ?_⟩
    rintro other hother _ hmem rfl
    exact hfresh (List.mem_singleton.mp hmem ▸ hother)
  case dotFree =>
    intro other hother
    rcases List.mem_append.mp hother with hother | hother
    · exact hknows.dotFree other hother
    · rw [List.mem_singleton.mp hother]
      exact hname
  case byQualified =>
    intro other hother
    rw [Std.HashMap.getElem?_insert, idxOf?_concat hfresh, hknows.byQualified other hother,
      hknows.size_operations]
    by_cases heq : (declaredAs file declaration).name = other
    · rw [if_pos heq, if_pos (beq_iff_eq.mpr (congrArg _ heq))]
    · rw [if_neg heq, if_neg]
      rw [beq_iff_eq]
      exact fun htext => heq (QualifiedName.text_inj hname hother htext)
  case byName =>
    intro simple
    rw [Std.HashMap.getD_insert, numbersOf_concat, hknows.byName, hknows.byName,
      hknows.size_operations]
    by_cases heq : declaration.name = simple
    · simp [heq, declaredAs]
    · simp [heq, declaredAs]

end Resolver.Knows

theorem splitRepeated_cons_of_mem {first : Declared} (hfirst : first.name ∈ earlier)
    (others : List Declared) :
    splitRepeated earlier (first :: others) =
      ((splitRepeated earlier others).1, first :: (splitRepeated earlier others).2) :=
  if_pos hfirst

theorem splitRepeated_cons_of_not_mem {first : Declared} (hfirst : first.name ∉ earlier)
    (others : List Declared) :
    splitRepeated earlier (first :: others) =
      (first :: (splitRepeated (first.name :: earlier) others).1,
        (splitRepeated (first.name :: earlier) others).2) :=
  if_neg hfirst

/-- By induction on the declarations; the names met so far are those that have numbers. -/
theorem Resolver.Knows.declares {pairs : List (SourceFile × Declaration)}
    (hdotFree : ∀ pair ∈ pairs, '.' ∉ pair.2.name.toList) (hknows : resolver.Knows names)
    (hearlier : ∀ name, name ∈ earlier ↔ name ∈ names) :
    resolver.Declares names (pairs.map fun pair => declaredAs pair.1 pair.2) earlier
      (pairs.foldl (fun resolver pair => resolver.declare pair.1 pair.2) resolver) := by
  induction pairs generalizing resolver names earlier with
  | nil => exact ⟨by simpa [splitRepeated] using hknows, by simp [splitRepeated],
      by simp [numbersFrom], by simp [splitRepeated]⟩
  | cons pair others ih =>
      obtain ⟨file, declaration⟩ := pair
      obtain ⟨hname, hothers⟩ := List.forall_mem_cons.mp hdotFree
      rw [List.map_cons, List.foldl_cons]
      by_cases hmem : (declaredAs file declaration).name ∈ earlier
      · have hdeclare := hknows.declare_repeated hname ((hearlier _).mp hmem)
        have hafter : (resolver.declare file declaration).Knows names := by
          rw [hdeclare]
          exact ⟨hknows.operations, hknows.distinct, hknows.dotFree, hknows.byQualified,
            hknows.byName⟩
        obtain ⟨hnext, hoperations, hnumbers, herrors⟩ := ih hothers hafter hearlier
        refine ⟨?_, ?_, ?_, ?_⟩
        · rwa [splitRepeated_cons_of_mem hmem]
        · rw [hoperations, splitRepeated_cons_of_mem hmem, hdeclare]
        · rw [hnumbers, hdeclare, numbersFrom, if_pos hmem, Array.toList_push, List.append_assoc]
          rfl
        · rw [herrors, splitRepeated_cons_of_mem hmem, hdeclare, List.append_assoc]
          rfl
      · have hfresh : (declaredAs file declaration).name ∉ names :=
          fun hname => hmem ((hearlier _).mpr hname)
        have hdeclare := hknows.declare_fresh hname hfresh
        have hmet : ∀ name, name ∈ (declaredAs file declaration).name :: earlier ↔
            name ∈ names ++ [(declaredAs file declaration).name] := by
          intro name
          rw [List.mem_cons, List.mem_append, List.mem_singleton, hearlier, or_comm]
        obtain ⟨hnext, hoperations, hnumbers, herrors⟩ :=
          ih hothers (hknows.knows_fresh hname hfresh) hmet
        refine ⟨?_, ?_, ?_, ?_⟩
        · rw [splitRepeated_cons_of_not_mem hmem]
          rwa [List.append_assoc] at hnext
        · rw [hoperations, splitRepeated_cons_of_not_mem hmem, hdeclare, Array.toList_push,
            List.append_assoc]
          rfl
        · rw [hnumbers, hdeclare, numbersFrom, if_neg hmem, Array.toList_push, List.append_assoc,
            List.length_append, hknows.size_operations]
          rfl
        · rw [herrors, splitRepeated_cons_of_not_mem hmem, hdeclare]

theorem Resolver.empty_knows : empty.Knows [] where
  operations := rfl
  distinct := List.nodup_nil
  dotFree := nofun
  byQualified := by simp [empty]
  byName := by simp [empty, numbersOf]

theorem declareAll_eq (files : List SourceFile) :
    Resolver.declareAll files =
      (declarationsIn files).foldl (fun resolver pair => resolver.declare pair.1 pair.2)
        Resolver.empty := by
  simp only [Resolver.declareAll, declarationsIn, List.foldl_flatMap, List.foldl_map]

theorem declaredIn_eq (files : List SourceFile) :
    declaredIn files = (declarationsIn files).map fun pair => declaredAs pair.1 pair.2 := by
  simp only [declarationsIn, List.map_flatMap, List.map_map]
  rfl

/-! ### Attaching bodies -/

/-- What attaching bodies to the operations behind those of `done` leaves. -/
structure Resolver.Attaches (resolver : Resolver) (names : List QualifiedName)
    (done : List Routine) (kept : List Declared) (after : Resolver) : Prop where
  operations : after.operations.toList =
    done ++ kept.map fun declared => declared.withBody (stepsOf names declared)
  errors : after.errors = resolver.errors ++ kept.flatMap (bodyErrorsOf names)

/-- A resolver knows the same names once an operation has another body. -/
theorem Resolver.Knows.set (hknows : resolver.Knows names) {routine : Routine}
    (hroutine : resolver.operations[number]? = some routine) (body : List Step)
    (errors : List ProgramError) (hnumber : number < resolver.operations.size) :
    ({ resolver with
        operations := resolver.operations.set number { routine with body } hnumber
        errors } : Resolver).Knows names := by
  refine ⟨?_, hknows.distinct, hknows.dotFree, hknows.byQualified, hknows.byName⟩
  have hname : (resolver.operations.toList.map (·.name))[number]? = some routine.name := by
    rw [List.getElem?_map, Array.getElem?_toList, hroutine, Option.map_some]
  obtain ⟨hbound, hget⟩ := List.getElem?_eq_some_iff.mp hname
  rw [Array.toList_set, List.map_set, ← hget, List.set_getElem_self]
  exact hknows.operations

theorem of_drop_eq_cons {α : Type} {values : List α} {index : Nat} {first : α} {others : List α}
    (hdrop : values.drop index = first :: others) :
    values[index]? = some first ∧ values.drop (index + 1) = others := by
  constructor
  · have hhead := congrArg List.head? hdrop
    rwa [List.head?_drop, List.head?_cons] at hhead
  · rw [← List.tail_drop, hdrop, List.tail_cons]

/-- The body of a declaration with a number is attached to its operation. -/
theorem Resolver.Knows.attach?_fresh {done rest : List Routine} {index : Nat}
    (hknows : resolver.Knows names)
    (htargets : ∀ statement ∈ declaration.body, ∀ target, statement.action = .call target →
      '.' ∉ target.name.toList)
    (hnumber : resolver.numbers.toList[index]? = some (some done.length))
    (hoperations : resolver.operations.toList =
      done ++ (declaredAs file declaration).withBody [] :: rest) :
    ∃ next, resolver.attach? file declaration index = some next ∧ next.Knows names ∧
      next.numbers = resolver.numbers ∧
      next.operations.toList = done ++ (declaredAs file declaration).withBody
        (stepsOf names (declaredAs file declaration)) :: rest ∧
      next.errors = resolver.errors ++ bodyErrorsOf names (declaredAs file declaration) := by
  have hbody : resolver.body? file [] resolver.errors declaration.body =
      some (stepsOf names (declaredAs file declaration),
        resolver.errors ++ bodyErrorsOf names (declaredAs file declaration)) :=
    hknows.body?_eq htargets [] resolver.errors
  have hroutine : resolver.operations[done.length]? =
      some ((declaredAs file declaration).withBody []) := by
    rw [← Array.getElem?_toList, hoperations, List.getElem?_append_right (Nat.le_refl _),
      Nat.sub_self, List.getElem?_cons_zero]
  have hbound := (Array.getElem?_eq_some_iff.mp hroutine).1
  refine ⟨_, ?_, hknows.set hroutine (stepsOf names (declaredAs file declaration))
    (resolver.errors ++ bodyErrorsOf names (declaredAs file declaration)) hbound, rfl, ?_, rfl⟩
  · rw [Array.getElem?_toList] at hnumber
    simp only [Resolver.attach?, hnumber, hbody, hroutine, put?_eq hbound,
      Option.bind_eq_bind, Option.bind_some, Option.pure_def]
  · rw [Array.toList_set, hoperations, List.set_append_right _ _ (Nat.le_refl _), Nat.sub_self,
      List.set_cons_zero]
    rfl

/-- By induction on the declarations: the bodies of those that name an operation first are attached
to the operations that have none yet. -/
theorem Resolver.Knows.attaches {pairs : List (SourceFile × Declaration)}
    {done : List Routine} {index : Nat}
    (hknows : resolver.Knows names)
    (htargets : ∀ pair ∈ pairs, ∀ statement ∈ pair.2.body, ∀ target,
      statement.action = .call target → '.' ∉ target.name.toList)
    (hnumbers : resolver.numbers.toList.drop index =
      numbersFrom done.length earlier (pairs.map fun pair => declaredAs pair.1 pair.2))
    (hoperations : resolver.operations.toList = done ++
      (splitRepeated earlier (pairs.map fun pair => declaredAs pair.1 pair.2)).1.map
        (·.withBody [])) :
    ∃ after, (pairs.zipIdx index).foldlM
        (fun resolver entry => resolver.attach? entry.1.1 entry.1.2 entry.2) resolver =
          some after ∧
      resolver.Attaches names done
        (splitRepeated earlier (pairs.map fun pair => declaredAs pair.1 pair.2)).1 after := by
  induction pairs generalizing resolver earlier done index with
  | nil =>
      exact ⟨resolver, rfl, by simpa [splitRepeated] using hoperations, by simp [splitRepeated]⟩
  | cons pair others ih =>
      obtain ⟨file, declaration⟩ := pair
      obtain ⟨htarget, hothers⟩ := List.forall_mem_cons.mp htargets
      rw [List.map_cons] at hnumbers hoperations ⊢
      rw [List.zipIdx_cons, List.foldlM_cons]
      by_cases hmem : (declaredAs file declaration).name ∈ earlier
      · rw [numbersFrom, if_pos hmem] at hnumbers
        obtain ⟨hnumber, hrest⟩ := of_drop_eq_cons hnumbers
        rw [splitRepeated_cons_of_mem hmem] at hoperations ⊢
        have hattach : resolver.attach? file declaration index = some resolver := by
          rw [Array.getElem?_toList] at hnumber
          simp only [Resolver.attach?, hnumber, Option.bind_eq_bind, Option.bind_some]
        simp only [hattach, Option.bind_eq_bind, Option.bind_some]
        exact ih hknows hothers hrest hoperations
      · rw [numbersFrom, if_neg hmem] at hnumbers
        obtain ⟨hnumber, hrest⟩ := of_drop_eq_cons hnumbers
        rw [splitRepeated_cons_of_not_mem hmem, List.map_cons] at hoperations
        rw [splitRepeated_cons_of_not_mem hmem]
        obtain ⟨next, hattach, hnext, hkept, hplaced, hmore⟩ :=
          hknows.attach?_fresh htarget hnumber hoperations
        have hcounted : done.length + 1 = (done ++ [(declaredAs file declaration).withBody
            (stepsOf names (declaredAs file declaration))]).length := by
          simp
        rw [← hkept, hcounted] at hrest
        rw [List.append_cons] at hplaced
        obtain ⟨after, hrun, hafter, herrors⟩ := ih hnext hothers hrest hplaced
        simp only [hattach, Option.bind_eq_bind, Option.bind_some]
        refine ⟨after, hrun, ?operations, ?errors⟩
        case operations => rw [hafter, ← List.append_cons, List.map_cons]
        case errors => rw [herrors, hmore, List.flatMap_cons, List.append_assoc]

/-- Tables find what the list of names finds, and no lookup fails, while simple names have no
dots. -/
theorem resolveByTables?_eq
    (hnames : ∀ pair ∈ declarationsIn files, '.' ∉ pair.2.name.toList)
    (htargets : ∀ pair ∈ declarationsIn files, ∀ statement ∈ pair.2.body, ∀ target,
      statement.action = .call target → '.' ∉ target.name.toList) :
    resolveByTables? files = some (resolve files) := by
  have hdeclares : Resolver.empty.Declares []
      ((declarationsIn files).map fun pair => declaredAs pair.1 pair.2) []
      (Resolver.declareAll files) := by
    rw [declareAll_eq]
    exact Resolver.empty_knows.declares hnames fun _ => Iff.rfl
  rw [← declaredIn_eq] at hdeclares
  obtain ⟨hknows, hoperations, hnumbers, herrors⟩ := hdeclares
  have hattached : ∃ after, (declarationsIn files).zipIdx.foldlM
      (fun resolver entry => resolver.attach? entry.1.1 entry.1.2 entry.2)
      (Resolver.declareAll files) = some after ∧
      (Resolver.declareAll files).Attaches
        ((splitRepeated [] (declaredIn files)).1.map (·.name)) []
        (splitRepeated [] (declaredIn files)).1 after := by
    rw [declaredIn_eq] at hknows hnumbers hoperations ⊢
    exact hknows.attaches htargets hnumbers hoperations
  obtain ⟨after, hrun, hafter, hmore⟩ := hattached
  have hall : after.errors = resolverErrors (splitRepeated [] (declaredIn files)) := by
    rw [hmore, herrors]
    rfl
  rw [resolveByTables?, hrun, resolve_eq, Option.bind_eq_bind, Option.bind_some, hall, hafter,
    List.nil_append]
  rfl

end GateBench.Program
