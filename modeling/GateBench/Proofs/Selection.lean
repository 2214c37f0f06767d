import GateBench.Dispatch.Lens
import GateBench.Program.Select
import GateBench.Proofs.Compilation
import GateBench.Proofs.ReadNames

/-!
Selecting an operation by its own name.  A dotted name means one operation; a simple name means
every operation of that name, so an operation outside all namespaces is only found while no
namespace has one of its name, and the lens that offers to draw it works only as long.
-/

namespace GateBench

open Dispatch Program

/-- What a name may stand for when an operation is selected by it. -/
def QualifiedName.MayMean (wanted name : QualifiedName) : Prop :=
  name.name = wanted.name ∧ (wanted.scope = none ∨ name.scope = wanted.scope)

/-- An operation outside all namespaces is overshadowed by one of its name within a namespace. -/
def Program.Operation.IsOvershadowed (program : Program) (operation : Operation) : Prop :=
  operation.name.scope = none ∧
    ∃ other ∈ program.operations, other.name.scope ≠ none ∧ other.name.name = operation.name.name

namespace Program

variable {program : Program} {number other : Nat} {operation : Operation} {text : String}
  {limits : Limits} {sources : List Source}

/-! ### Choosing the only one -/

theorem mem_numbersWhere {wanted : Operation → Bool} :
    number ∈ program.numbersWhere wanted ↔
      ∃ operation, program.operations[number]? = some operation ∧ wanted operation := by
  simp only [numbersWhere, List.mem_filter, List.mem_range, Option.any_eq_true]
  constructor
  · exact fun hnumber => hnumber.2
  · rintro ⟨operation, hoperation, hwanted⟩
    exact ⟨(Array.getElem?_eq_some_iff.mp hoperation).1, operation, hoperation, hwanted⟩

/-- Counted by number or read off the list, the operations with a property are the same ones. -/
theorem numbersWhere_map (program : Program) (wanted : Operation → Bool) :
    (program.numbersWhere wanted).map (program.operations[·]?) =
      (program.operations.toList.filter wanted).map some := by
  have hall : (List.range program.operations.size).map (program.operations[·]?) =
      program.operations.toList.map some := by
    apply List.ext_getElem?
    intro index
    by_cases hindex : index < program.operations.size
    · simp [hindex]
    · simp [hindex]
  have hfilter := congrArg (List.filter (·.any wanted)) hall
  rw [List.filter_map, List.filter_map] at hfilter
  exact hfilter

theorem length_numbersWhere (program : Program) (wanted : Operation → Bool) :
    (program.numbersWhere wanted).length = program.operations.toList.countP wanted := by
  have hlength := congrArg List.length (numbersWhere_map program wanted)
  rw [List.length_map, List.length_map] at hlength
  rw [hlength, List.countP_eq_length_filter]

theorem numbersWhere_lt {wanted : Operation → Bool}
    (hnumber : number ∈ program.numbersWhere wanted) : number < program.operations.size :=
  List.mem_range.mp (List.mem_filter.mp hnumber).1

theorem namesOf_eq (program : Program) (numbers : List Nat) :
    program.namesOf numbers =
      (numbers.map (program.operations[·]?)).filterMap (·.map (·.name)) := by
  rw [List.filterMap_map]
  rfl

theorem namesOf_numbersWhere (program : Program) (wanted : Operation → Bool) :
    program.namesOf (program.numbersWhere wanted) =
      (program.operations.toList.filter wanted).map (·.name) := by
  rw [namesOf_eq, numbersWhere_map, List.filterMap_map]
  simp

theorem numbersWhere_nodup (program : Program) (wanted : Operation → Bool) :
    (program.numbersWhere wanted).Nodup :=
  List.nodup_range.filter _

/-- The numbers of the operations that a text may mean. -/
def meantBy (program : Program) (text : String) : List Nat :=
  program.numbersWhere fun operation =>
    operation.name.name = (QualifiedName.ofText text).name &&
      ((QualifiedName.ofText text).scope.isNone ||
        operation.name.scope = (QualifiedName.ofText text).scope)

/-- The only one of some operations; the error where there is none, or where there are several. -/
def onlyOf (program : Program) (numbers : List Nat) (missing : ProgramError)
    (ambiguous : List QualifiedName → ProgramError) : Except ProgramError Nat :=
  match numbers with
  | [] => .error missing
  | [number] => .ok number
  | several => .error (ambiguous (program.namesOf several))

theorem findText_eq (program : Program) (text : String) :
    program.findText text =
      program.onlyOf (program.meantBy text) (.operationNotFound text) (.ambiguousName text) := rfl

theorem entry_none_eq (program : Program) :
    program.entry none =
      program.onlyOf (program.numbersWhere (·.isEntry)) .noEntryPoint .ambiguousEntryPoint := rfl

theorem onlyOf_mem {numbers : List Nat} {missing : ProgramError}
    {ambiguous : List QualifiedName → ProgramError}
    (hfound : program.onlyOf numbers missing ambiguous = .ok number) : number ∈ numbers := by
  unfold onlyOf at hfound
  split at hfound
  · cases hfound
  · cases hfound
    exact List.mem_singleton_self _
  · cases hfound

theorem findText_lt (hfound : program.findText text = .ok number) :
    number < program.operations.size :=
  numbersWhere_lt (onlyOf_mem (program.findText_eq text ▸ hfound))

theorem entry_lt {requested : Option String} (hfound : program.entry requested = .ok number) :
    number < program.operations.size := by
  cases requested with
  | none => exact numbersWhere_lt (onlyOf_mem (program.entry_none_eq ▸ hfound))
  | some text => exact findText_lt hfound

theorem mem_meantBy :
    number ∈ program.meantBy text ↔ ∃ operation, program.operations[number]? = some operation ∧
      (QualifiedName.ofText text).MayMean operation.name := by
  simp [meantBy, mem_numbersWhere, QualifiedName.MayMean, Option.isNone_iff_eq_none]

theorem mem_namesOf {numbers : List Nat} {name : QualifiedName} :
    name ∈ program.namesOf numbers ↔
      ∃ number ∈ numbers, ∃ operation, program.operations[number]? = some operation ∧
        operation.name = name := by
  simp [namesOf, Option.map_eq_some_iff]

/-- A text is refused as ambiguous as soon as it may mean two operations. -/
theorem findText_of_several (hfirst : number ∈ program.meantBy text)
    (hsecond : other ∈ program.meantBy text) (hne : number ≠ other) :
    program.findText text =
      .error (.ambiguousName text (program.namesOf (program.meantBy text))) := by
  rw [findText_eq]
  unfold onlyOf
  split
  · rename_i hnone
    simp [hnone] at hfirst
  · rename_i only honly
    rw [honly, List.mem_singleton] at hfirst hsecond
    exact absurd (hfirst.trans hsecond.symm) hne
  · rfl

theorem findText_of_only (honly : ∀ other, other ∈ program.meantBy text ↔ other = number) :
    program.findText text = .ok number := by
  have hnodup : (program.meantBy text).Nodup := numbersWhere_nodup _ _
  have hperm : (program.meantBy text).Perm [number] :=
    (List.perm_ext_iff_of_nodup hnodup (List.nodup_singleton _)).mpr
      fun other => by rw [honly, List.mem_singleton]
  rw [findText_eq, List.perm_singleton.mp hperm]
  rfl

/-! ### Names of a compiled program -/

theorem resolved_names {names : List QualifiedName} {declared : List Declared}
    {routines : List Routine} (hresolved : List.Forall₂ (Resolves names) declared routines) :
    declared.map (·.name) = routines.map (·.name) := by
  rw [← List.forall₂_eq_eq_eq, List.forall₂_map_left_iff, List.forall₂_map_right_iff]
  exact hresolved.imp fun _ _ hresolves => hresolves.name.symm

theorem names_eq_routines (program : Program) :
    program.operations.toList.map (·.name) = program.routines.toList.map (·.name) := by
  simp [Program.routines]

theorem compileFiles_names {files : List Syntax.SourceFile}
    (hcompiled : compileFiles files limits = .ok program) :
    program.operations.toList.map (·.name) = (declaredIn files).map (·.name) ∧
      (program.operations.toList.map (·.name)).Nodup := by
  obtain ⟨hdistinct, hresolved⟩ := resolve_ok_iff.mp (resolve_of_compileFiles hcompiled)
  have hnames : program.operations.toList.map (·.name) = (declaredIn files).map (·.name) := by
    rw [names_eq_routines, resolved_names hresolved]
  exact ⟨hnames, hnames ▸ hdistinct⟩

/-- The operations of a compiled program are those that its files declare, under different names. -/
theorem compile_names (haccepted : compile sources limits = .ok program) :
    ∃ files, List.Forall₂ (fun source file => parse source = .ok file) sources files ∧
      program.operations.toList.map (·.name) = (declaredIn files).map (·.name) ∧
      (program.operations.toList.map (·.name)).Nodup := by
  obtain ⟨files, hparsed, hcompiled⟩ := compile_ok_iff_compileFiles.mp haccepted
  exact ⟨files, hparsed, compileFiles_names hcompiled⟩

/-- No two operations of a compiled program have the same name. -/
theorem compile_name_inj (haccepted : compile sources limits = .ok program)
    {operation' : Operation} (hoperation : program.operations[number]? = some operation)
    (hother : program.operations[other]? = some operation')
    (hname : operation'.name = operation.name) : other = number := by
  obtain ⟨files, -, -, hnodup⟩ := compile_names haccepted
  have hfirst : (program.operations.toList.map (·.name))[number]? = some operation.name := by
    simp [hoperation]
  have hsecond : (program.operations.toList.map (·.name))[other]? = some operation.name := by
    simp [hother, hname]
  exact (getElem?_eq_some_iff_of_nodup hnodup hfirst).mp hsecond

/-- The simple name of an operation of a compiled program has no dot. -/
theorem compile_name_dotFree (haccepted : compile sources limits = .ok program) :
    ∀ operation ∈ program.operations, '.' ∉ operation.name.name.toList := by
  obtain ⟨files, hparsed, hnames, -⟩ := compile_names haccepted
  intro operation hoperation
  have hmem : operation.name ∈ (declaredIn files).map (·.name) :=
    hnames ▸ List.mem_map_of_mem (Array.mem_toList_iff.mpr hoperation)
  simp only [declaredIn, List.map_flatMap, List.map_map, List.mem_flatMap, List.mem_map] at hmem
  obtain ⟨file, hfile, declaration, hdeclaration, hname⟩ := hmem
  obtain ⟨source, -, hread⟩ := exists_of_forall₂_of_mem hparsed hfile
  rw [← hname]
  exact parse_name_dotFree hread declaration hdeclaration

/-! ### Selecting an operation by its own name -/

theorem mem_meantBy_own (haccepted : compile sources limits = .ok program)
    (hoperation : operation ∈ program.operations) :
    number ∈ program.meantBy operation.name.text ↔
      ∃ found, program.operations[number]? = some found ∧ operation.name.MayMean found.name := by
  rw [mem_meantBy, QualifiedName.ofText_text (compile_name_dotFree haccepted operation hoperation)]

/-- An operation is found by its own name unless it is overshadowed. -/
theorem find_own (haccepted : compile sources limits = .ok program)
    (hoperation : program.operations[number]? = some operation)
    (hclear : ¬ operation.IsOvershadowed program) : program.find operation.name = .ok number := by
  apply findText_of_only
  intro other
  rw [mem_meantBy_own haccepted (Array.mem_of_getElem? hoperation)]
  constructor
  · rintro ⟨found, hfound, hname, hscope⟩
    -- Outside all namespaces only an operation that overshadows could differ in its scope.
    have hsame : found.name.scope = operation.name.scope := by
      rcases hscope with hnone | hscope
      · by_contra hne
        exact hclear ⟨hnone, found, Array.mem_of_getElem? hfound, hnone ▸ hne, hname⟩
      · exact hscope
    exact compile_name_inj haccepted hoperation hfound (congrArg₂ QualifiedName.mk hsame hname)
  · rintro rfl
    exact ⟨operation, hoperation, rfl, .inr rfl⟩

/-- The name of an overshadowed operation is ambiguous; among the candidates named are the operation
itself and operations of its simple name only. -/
theorem find_own_overshadowed (haccepted : compile sources limits = .ok program)
    (hoperation : program.operations[number]? = some operation)
    (hovershadowed : operation.IsOvershadowed program) :
    ∃ candidates, program.find operation.name =
        .error (.ambiguousName operation.name.text candidates) ∧
      operation.name ∈ candidates ∧ ∀ name ∈ candidates, name.name = operation.name.name := by
  obtain ⟨hnone, shadow, hshadow, hscope, hname⟩ := hovershadowed
  obtain ⟨other, hbound, hother⟩ := Array.mem_iff_getElem.mp hshadow
  have hother : program.operations[other]? = some shadow := by simp [hbound, hother]
  have hmeant := fun number => @mem_meantBy_own _ number _ _ _ haccepted
    (Array.mem_of_getElem? hoperation)
  have hown : number ∈ program.meantBy operation.name.text :=
    (hmeant number).mpr ⟨operation, hoperation, rfl, .inr rfl⟩
  have hshadowing : other ∈ program.meantBy operation.name.text :=
    (hmeant other).mpr ⟨shadow, hother, hname, .inl hnone⟩
  have hne : number ≠ other := by
    rintro rfl
    obtain rfl := Option.some.inj (hoperation.symm.trans hother)
    exact hscope hnone
  refine ⟨_, findText_of_several hown hshadowing hne, ?_, ?_⟩
  · exact mem_namesOf.mpr ⟨number, hown, operation, hoperation, rfl⟩
  · intro name hmem
    obtain ⟨number, hnumber, found, hfound, rfl⟩ := mem_namesOf.mp hmem
    obtain ⟨found', hfound', hsame, -⟩ := (hmeant number).mp hnumber
    obtain rfl := Option.some.inj (hfound.symm.trans hfound')
    exact hsame

theorem find_own_iff (haccepted : compile sources limits = .ok program)
    (hoperation : program.operations[number]? = some operation) :
    program.find operation.name = .ok number ↔ ¬ operation.IsOvershadowed program := by
  refine ⟨fun hfound hovershadowed => ?_, find_own haccepted hoperation⟩
  obtain ⟨candidates, hrefused, -⟩ := find_own_overshadowed haccepted hoperation hovershadowed
  exact absurd (hfound.symm.trans hrefused) nofun

/-! ### Lenses -/

theorem mem_lensesOf {summaries : List Message.OperationSummary} {lens : Lens} :
    lens ∈ lensesOf summaries ↔
      ∃ summary ∈ summaries, ∃ command ∈ commandsFor summary,
        ⟨summary.name.text, command⟩ = lens := by
  simp [lensesOf]

/-- The only name that a command offered for an operation selects is that of the operation. -/
theorem selects_of_mem_commandsFor {summary : Message.OperationSummary} {command : LensCommand}
    (hoffered : command ∈ commandsFor summary) {selected : QualifiedName}
    (hselects : command.selects? = some selected) : selected = summary.name := by
  unfold commandsFor at hoffered
  split at hoffered
  · simp only [List.mem_cons, List.not_mem_nil, or_false] at hoffered
    rcases hoffered with rfl | rfl | rfl <;> cases hselects
  · split at hoffered
    · obtain rfl := List.mem_singleton.mp hoffered
      exact (Option.some.inj hselects).symm
    · cases hoffered

/-- Labels tell the operations of a compiled program apart. -/
theorem compile_text_inj (haccepted : compile sources limits = .ok program)
    {operation' : Operation} (hoperation : program.operations[number]? = some operation)
    (hother : program.operations[other]? = some operation')
    (htext : operation'.name.text = operation.name.text) : other = number := by
  have hread := congrArg QualifiedName.ofText htext
  rw [QualifiedName.ofText_text (compile_name_dotFree haccepted _ (Array.mem_of_getElem? hother)),
    QualifiedName.ofText_text (compile_name_dotFree haccepted _ (Array.mem_of_getElem? hoperation))]
    at hread
  exact compile_name_inj haccepted hoperation hother hread

theorem lens_attached {lens : Lens} (hlens : lens ∈ lensesOf program.summaries)
    {selected : QualifiedName} (hselects : lens.command.selects? = some selected) :
    ∃ (number : Nat) (operation : Operation), program.operations[number]? = some operation ∧
      lens.operation = operation.name.text ∧ selected = operation.name := by
  obtain ⟨summary, hsummary, command, hcommand, rfl⟩ := mem_lensesOf.mp hlens
  obtain ⟨operation, hoperation, rfl⟩ := List.mem_map.mp hsummary
  obtain ⟨number, hbound, hnumber⟩ := Array.mem_iff_getElem.mp (Array.mem_toList_iff.mp hoperation)
  exact ⟨number, operation, by simp [hbound, hnumber], rfl,
    selects_of_mem_commandsFor hcommand hselects⟩

/-- An operation of a compiled program is found by its own name unless it is overshadowed; then its
name is ambiguous.  So a lens that selects by name, which is attached to one operation and states
the name of that, leads to it unless it is overshadowed. -/
theorem compile_find_own (haccepted : compile sources limits = .ok program) :
    (∀ (number : Nat) (operation : Operation), program.operations[number]? = some operation →
      (program.find operation.name = .ok number ↔ ¬ operation.IsOvershadowed program) ∧
      (operation.IsOvershadowed program → ∃ candidates,
        program.find operation.name = .error (.ambiguousName operation.name.text candidates) ∧
        operation.name ∈ candidates ∧ ∀ name ∈ candidates, name.name = operation.name.name)) ∧
    ∀ lens ∈ lensesOf program.summaries, ∀ selected, lens.command.selects? = some selected →
      ∃ (number : Nat) (operation : Operation), program.operations[number]? = some operation ∧
        lens.operation = operation.name.text ∧
        (∀ (other : Nat) (found : Operation), program.operations[other]? = some found →
          found.name.text = lens.operation → other = number) ∧
        (program.find selected = .ok number ↔ ¬ operation.IsOvershadowed program) := by
  constructor
  · intro number operation hoperation
    exact ⟨find_own_iff haccepted hoperation, find_own_overshadowed haccepted hoperation⟩
  · intro lens hlens selected hselects
    obtain ⟨number, operation, hoperation, hlabel, rfl⟩ := lens_attached hlens hselects
    refine ⟨number, operation, hoperation, hlabel, fun other found hfound htext => ?_,
      find_own_iff haccepted hoperation⟩
    exact compile_text_inj haccepted hoperation hfound (htext.trans hlabel)

/-- Two operations of one simple name, the second within a namespace. -/
def twoScopes : List Source :=
  [⟨"plain.qb", "operation A { reset 0; }"⟩, ⟨"scoped.qb", "namespace N; operation A { reset 0; }"⟩]

/-- What they compile to. -/
def twoScopesProgram : Program :=
  ⟨#[
    ⟨⟨⟨none, "A"⟩, false, ⟨"plain.qb", 1⟩, [⟨.perform (.reset 0), 1⟩]⟩, ⟨[0], 1, 0⟩⟩,
    ⟨⟨⟨some "N", "A"⟩, false, ⟨"scoped.qb", 1⟩, [⟨.perform (.reset 0), 1⟩]⟩, ⟨[0], 1, 0⟩⟩]⟩

theorem compile_twoScopes : compile twoScopes {} = .ok twoScopesProgram := by
  have hplain : parse ⟨"plain.qb", "operation A { reset 0; }"⟩ =
      .ok ⟨"plain.qb", none, [⟨"A", false, 1, [⟨.reset 0, 1⟩]⟩]⟩ := by
    decide +kernel
  have hscoped : parse ⟨"scoped.qb", "namespace N; operation A { reset 0; }"⟩ =
      .ok ⟨"scoped.qb", some "N", [⟨"A", false, 1, [⟨.reset 0, 1⟩]⟩]⟩ := by
    decide +kernel
  refine compile_ok_iff_compileFiles.mpr ⟨_, .cons hplain (.cons hscoped .nil), ?_⟩
  cbv

/-- The lens of the operation without a namespace selects nothing, that of the other selects it. -/
theorem compile_find_own_twoScopes :
    compile twoScopes {} = .ok twoScopesProgram ∧
      lensesOf twoScopesProgram.summaries =
        [⟨"A", .operationCircuit ⟨none, "A"⟩⟩, ⟨"N.A", .operationCircuit ⟨some "N", "A"⟩⟩] ∧
      (∃ candidates, twoScopesProgram.find ⟨none, "A"⟩ = .error (.ambiguousName "A" candidates)) ∧
      twoScopesProgram.find ⟨some "N", "A"⟩ = .ok 1 := by
  have hnumbered := (compile_find_own compile_twoScopes).1
  refine ⟨compile_twoScopes, by decide, ?_, ?_⟩
  · obtain ⟨candidates, hrefused, -⟩ := (hnumbered 0 _ rfl).2
      ⟨rfl, twoScopesProgram.operations[1], Array.getElem_mem _, by decide, rfl⟩
    exact ⟨candidates, hrefused⟩
  · exact (hnumbered 1 _ rfl).1.mpr fun hovershadowed => nomatch hovershadowed.1

end Program

end GateBench
