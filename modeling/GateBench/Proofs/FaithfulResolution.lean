import GateBench.Proofs.NameTables
import GateBench.Proofs.Selection

/-!
Faithful resolution.  The operations of a compiled program are the declarations of its files in
order, statement by statement: every gate is the one that is written, on the qubits that are
written, with the value of the angle that is written, and every call is bound to the one operation
that its target determines.  Names are looked up in tables on the way, and the declarations are
counted again for their bodies; both end at the right operation.
-/

namespace GateBench.Program

open GateBench.Syntax

/-- The name that a gate is written with. -/
def Gate.written : Gate → String
  | .h => "h"
  | .x => "x"
  | .y => "y"
  | .z => "z"
  | .s => "s"
  | .sInverse => "sdg"
  | .t => "t"
  | .tInverse => "tdg"
  | .rotateX _ => "rx"
  | .rotateY _ => "ry"
  | .rotateZ _ => "rz"
  | .phase _ => "p"
  | .controlledX => "cx"
  | .controlledZ => "cz"
  | .swap => "swap"
  | .doublyControlledX => "ccx"

/-- `IsAsWritten names scope action stepAction`: what is done is what a statement of the namespace
`scope` says, where operations have the given names. -/
inductive IsAsWritten (names : List QualifiedName) (scope : Option String) :
    Action → StepAction → Prop
  /-- The gate of the written name, with the values of the written angles. -/
  | gate {call : GateCall} {kind : Gate} : kind.written = call.name →
      kind.angle?.toList = call.parameters.map (·.value) →
      IsAsWritten names scope (.gate call) (.perform (.gate kind call.qubits))
  | measure (qubit : Nat) : IsAsWritten names scope (.measure qubit) (.perform (.measure qubit))
  | reset (qubit : Nat) : IsAsWritten names scope (.reset qubit) (.perform (.reset qubit))
  /-- The only operation that the target of the call determines. -/
  | call {target : QualifiedName} {callee : Nat} :
      (∀ number, Determines names scope target number ↔ number = callee) →
      IsAsWritten names scope (.call target) (.call callee)

/-- An operation is what a declaration of a file says, one step for each statement. -/
structure Operation.IsDeclared (names : List QualifiedName) (file : SourceFile)
    (declaration : Declaration) (operation : Operation) : Prop where
  name : operation.name = ⟨file.scope, declaration.name⟩
  isEntry : operation.isEntry = declaration.isEntry
  location : operation.location = ⟨file.name, declaration.line⟩
  body : List.Forall₂ (fun statement step =>
      IsAsWritten names file.scope statement.action step.action ∧ step.line = statement.line)
    declaration.body operation.body

variable {names : List QualifiedName} {scope : Option String} {target : QualifiedName}
  {callee : Nat} {files : List SourceFile} {limits : Limits} {program : Program}
  {sources : List Source}

/-! ### Gates -/

/-- The gate table has each gate under the name that it is written with. -/
theorem written_of_gateRow? {name : String} {row : GateRow} (hrow : gateRow? name = some row)
    (angle : Float) : (row.gate angle).written = name := by
  unfold gateRow? at hrow
  split at hrow
  all_goals cases hrow
  all_goals rfl

/-- A gate of the table has the angle that it is made with, if it takes one. -/
theorem angle?_of_gateRow? {name : String} {row : GateRow} (hrow : gateRow? name = some row)
    {angles : List Float} (hcount : angles.length = row.parameters) :
    (row.gate (angles.head?.getD 0.0)).angle?.toList = angles := by
  unfold gateRow? at hrow
  split at hrow
  all_goals cases hrow
  all_goals first
    | obtain ⟨angle, rfl⟩ := List.length_eq_one_iff.mp hcount
      rfl
    | obtain rfl := List.length_eq_zero_iff.mp hcount
      rfl

/-! ### Statements -/

/-- A target determines one operation at most, while operations have different names. -/
theorem Determines.iff_eq (hnodup : names.Nodup) (hcallee : Determines names scope target callee)
    (number : Nat) : Determines names scope target number ↔ number = callee := by
  have hbound := (resolveCall_ok_iff hnodup).mpr hcallee
  constructor
  · intro hnumber
    exact Except.ok.inj (((resolveCall_ok_iff hnodup).mpr hnumber).symm.trans hbound)
  · rintro rfl
    exact hcallee

theorem ResolvesTo.isAsWritten (hnodup : names.Nodup) {action : Action} {stepAction : StepAction}
    (hresolves : ResolvesTo names scope action stepAction) :
    IsAsWritten names scope action stepAction := by
  cases hresolves with
  | @gate call row hrow hparameters hqubits hdistinct =>
      apply IsAsWritten.gate
      · exact written_of_gateRow? hrow _
      · have hcount : (call.parameters.map (·.value)).length = row.parameters := by
          rw [List.length_map, hparameters]
        rw [← angle?_of_gateRow? hrow hcount, List.head?_map]
  | measure qubit => exact .measure qubit
  | reset qubit => exact .reset qubit
  | call hcallee => exact .call (hcallee.iff_eq hnodup)

/-! ### Operations -/

theorem Resolves.isDeclared (hnodup : names.Nodup) {file : SourceFile} {declaration : Declaration}
    {operation : Operation}
    (hresolves : Resolves names (declaredAs file declaration) operation.toRoutine) :
    operation.IsDeclared names file declaration where
  name := hresolves.name
  isEntry := hresolves.isEntry
  location := hresolves.location
  body := hresolves.body.imp fun _ _ hstep => ⟨hstep.1.isAsWritten hnodup, hstep.2⟩

/-- The operations of compiled files are their declarations. -/
theorem compileFiles_isDeclared (hcompiled : compileFiles files limits = .ok program) :
    List.Forall₂
      (fun pair operation =>
        operation.IsDeclared (program.operations.toList.map (·.name)) pair.1 pair.2)
      (declarationsIn files) program.operations.toList := by
  obtain ⟨hnames, hnodup⟩ := compileFiles_names hcompiled
  have hresolved := (resolve_ok_iff.mp (resolve_of_compileFiles hcompiled)).2
  rw [← hnames, Program.routines, Array.toList_map, declaredIn_eq, List.forall₂_map_left_iff,
    List.forall₂_map_right_iff] at hresolved
  exact hresolved.imp fun _ _ hresolves => hresolves.isDeclared hnodup

/-- What sources parse into has no dots in the simple names that are looked up. -/
theorem resolveByTables?_parsed
    (hparsed : List.Forall₂ (fun source file => parse source = .ok file) sources files) :
    resolveByTables? files = some (resolve files) := by
  have hread : ∀ pair ∈ declarationsIn files, ∃ source, parse source = .ok pair.1 ∧
      pair.2 ∈ pair.1.declarations := by
    intro pair hpair
    obtain ⟨file, hfile, hpair⟩ := List.mem_flatMap.mp hpair
    obtain ⟨declaration, hdeclaration, rfl⟩ := List.mem_map.mp hpair
    obtain ⟨source, -, hsource⟩ := exists_of_forall₂_of_mem hparsed hfile
    exact ⟨source, hsource, hdeclaration⟩
  apply resolveByTables?_eq
  · intro pair hpair
    obtain ⟨source, hsource, hdeclaration⟩ := hread pair hpair
    exact parse_name_dotFree hsource pair.2 hdeclaration
  · intro pair hpair
    obtain ⟨source, hsource, hdeclaration⟩ := hread pair hpair
    exact parse_target_dotFree hsource pair.2 hdeclaration

/-- The operations of a compiled program are the declarations of its files in order, with the body
that is written, and resolution through tables finds them without a failing lookup. -/
theorem compile_faithful (haccepted : compile sources limits = .ok program) :
    ∃ files, List.Forall₂ (fun source file => parse source = .ok file) sources files ∧
      resolveByTables? files = some (.ok program.routines.toList) ∧
      List.Forall₂
        (fun pair operation =>
          operation.IsDeclared (program.operations.toList.map (·.name)) pair.1 pair.2)
        (declarationsIn files) program.operations.toList := by
  obtain ⟨files, hparsed, hcompiled⟩ := compile_ok_iff_compileFiles.mp haccepted
  have hresolved : resolveByTables? files = some (.ok program.routines.toList) := by
    rw [resolveByTables?_parsed hparsed, resolve_of_compileFiles hcompiled]
  exact ⟨files, hparsed, hresolved, compileFiles_isDeclared hcompiled⟩

/-- A namespace in two files, and an operation of another one with the same simple name. -/
def sharedNamespace : List Source :=
  [⟨"a.qb", "namespace A.B; operation f \x7b call g; call C.g; call h; cx 1, 0; \x7d"⟩,
    ⟨"b.qb", "namespace A.B; operation g \x7b h 0; \x7d"⟩,
    ⟨"c.qb", "namespace C; operation g \x7b x 1; \x7d @entry operation h \x7b measure 0; \x7d"⟩]

/-- What they parse into. -/
def sharedNamespaceFiles : List SourceFile :=
  [⟨"a.qb", some "A.B", [⟨"f", false, 1,
      [⟨.call ⟨none, "g"⟩, 1⟩, ⟨.call ⟨some "C", "g"⟩, 1⟩, ⟨.call ⟨none, "h"⟩, 1⟩,
        ⟨.gate ⟨"cx", [], [1, 0]⟩, 1⟩]⟩]⟩,
    ⟨"b.qb", some "A.B", [⟨"g", false, 1, [⟨.gate ⟨"h", [], [0]⟩, 1⟩]⟩]⟩,
    ⟨"c.qb", some "C", [⟨"g", false, 1, [⟨.gate ⟨"x", [], [1]⟩, 1⟩]⟩,
      ⟨"h", true, 1, [⟨.measure 0, 1⟩]⟩]⟩]

/-- What they compile to. -/
def sharedNamespaceProgram : Program :=
  ⟨#[
    ⟨⟨⟨some "A.B", "f"⟩, false, ⟨"a.qb", 1⟩,
      [⟨.call 1, 1⟩, ⟨.call 2, 1⟩, ⟨.call 3, 1⟩, ⟨.perform (.gate .controlledX [1, 0]), 1⟩]⟩,
      ⟨[0, 1], 7, 1⟩⟩,
    ⟨⟨⟨some "A.B", "g"⟩, false, ⟨"b.qb", 1⟩, [⟨.perform (.gate .h [0]), 1⟩]⟩, ⟨[0], 1, 0⟩⟩,
    ⟨⟨⟨some "C", "g"⟩, false, ⟨"c.qb", 1⟩, [⟨.perform (.gate .x [1]), 1⟩]⟩, ⟨[1], 1, 0⟩⟩,
    ⟨⟨⟨some "C", "h"⟩, true, ⟨"c.qb", 1⟩, [⟨.perform (.measure 0), 1⟩]⟩, ⟨[0], 1, 0⟩⟩]⟩

theorem compile_sharedNamespace : compile sharedNamespace {} = .ok sharedNamespaceProgram := by
  have hparsed : List.Forall₂ (fun source file => parse source = .ok file) sharedNamespace
      sharedNamespaceFiles :=
    .cons (by decide +kernel) (.cons (by decide +kernel) (.cons (by decide +kernel) .nil))
  have hresolved : resolve sharedNamespaceFiles = .ok sharedNamespaceProgram.routines.toList := by
    decide +kernel
  have hcompiled : compileFiles sharedNamespaceFiles {} = .ok sharedNamespaceProgram := by
    rw [compileFiles, hresolved]
    cbv
  exact compile_ok_iff_compileFiles.mpr ⟨_, hparsed, hcompiled⟩

/-- The calls of the first file are bound to the three operations behind it. -/
theorem compile_faithful_sharedNamespace :
    compile sharedNamespace {} = .ok sharedNamespaceProgram ∧
      ∃ files,
        List.Forall₂ (fun source file => parse source = .ok file) sharedNamespace files ∧
        resolveByTables? files = some (.ok sharedNamespaceProgram.routines.toList) ∧
        List.Forall₂
          (fun pair operation => operation.IsDeclared
            [⟨some "A.B", "f"⟩, ⟨some "A.B", "g"⟩, ⟨some "C", "g"⟩, ⟨some "C", "h"⟩] pair.1 pair.2)
          (declarationsIn files) sharedNamespaceProgram.operations.toList :=
  ⟨compile_sharedNamespace, compile_faithful compile_sharedNamespace⟩

end GateBench.Program
