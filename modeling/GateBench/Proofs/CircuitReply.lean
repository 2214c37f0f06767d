import GateBench.Proofs.Drawing
import GateBench.Proofs.Selection
import GateBench.Simulation.StatevectorEngine

/-!
Circuits in replies.  A nested call takes two levels of a reply's nesting, the object of its box and
the array of its children, and a decoder follows 127 levels.  So not every circuit that the limits
on programs admit comes back from its line.
-/

namespace GateBench.Program

/-- A chain of so many nested calls leads from an operation to one that has statements. -/
def LeadsDown (routines : Array Routine) (number levels : Nat) : Prop :=
  ∃ chain : List Nat, (number :: chain).IsChain (Calls routines) ∧ chain.length = levels ∧
    ∃ last, routines[(number :: chain).getLast (List.cons_ne_nil _ _)]? = some last ∧
      last.body ≠ []

end GateBench.Program

namespace GateBench.Message

open GateBench.Json

theorem Wire.depth_le (wire : Wire) : wire.toJson.depth ≤ 1 := by
  simp [Wire.toJson]

/-- The reply with a diagram stays within 127 levels as long as its boxes stay within 61. -/
theorem Outbound.circuit_depth_lt_iff (id : Nat) (diagram : Diagram) :
    (Outbound.reply id (.circuit diagram)).toJson.depth < 128 ↔
      Box.nestingOfAll diagram.boxes ≤ 61 := by
  have hwires : depthOfAll (diagram.wires.map Wire.toJson) ≤ 1 :=
    depthOfAll_le_iff.mpr (by simpa using fun wire _ => wire.depth_le)
  have hboxes := Box.depthOfAll_toJson diagram.boxes
  rw [Box.allToJson_eq_map] at hboxes
  change (Json.ofMembers [("type", .ofString "reply"), ("id", .ofNat id), ("response",
    .ofMembers [("kind", .ofString "circuit"), ("circuit", diagram.toJson)])]).depth < 127 + 1 ↔ _
  rw [Nat.lt_succ_iff]
  simp only [Diagram.toJson, depth_ofMembers_le_iff, membersWithin_cons, membersWithin_nil,
    depth_ofString, depth_ofNat, depth, and_true]
  omega

end GateBench.Message

namespace GateBench.Simulation

open GateBench.Message GateBench.Program

/-- The operation to draw: the one asked for, or else the only entry point. -/
def chosen (operation : Option QualifiedName) (program : Program) : Except ProgramError Nat :=
  match operation with
  | some name => program.find name
  | none => program.entry none

theorem chosen_lt {operation : Option QualifiedName} {program : Program} {number : Nat}
    (hchosen : chosen operation program = .ok number) : number < program.operations.size := by
  cases operation with
  | none => exact @entry_lt program number none hchosen
  | some name => exact findText_lt hchosen

namespace StatevectorEngine

variable {engine : StatevectorEngine} {sources : List Source} {profile : Profile}
  {choose : Program → Except ProgramError Nat} {selection : Selection}

theorem select_ok_iff :
    engine.select sources profile choose = .ok selection ↔
      compile sources engine.limits = .ok selection.program ∧
        choose selection.program = .ok selection.operation ∧
        selection.program.violations selection.operation profile = [] := by
  obtain ⟨program, number⟩ := selection
  simp only [select, bind_eq_ok_iff, mapError_eq_ok_iff]
  constructor
  · rintro ⟨compiled, hcompile, found, hchoose, hallowed⟩
    split at hallowed
    · rename_i hnone
      cases hallowed
      exact ⟨hcompile, hchoose, hnone⟩
    · cases hallowed
  · rintro ⟨hcompile, hchoose, hnone⟩
    refine ⟨program, hcompile, number, hchoose, ?_⟩
    rw [hnone]
    rfl

theorem circuit_eq_circuit_iff {operation : Option QualifiedName} {diagram : Diagram} :
    engine.circuit sources profile operation = .circuit diagram ↔
      ∃ program number, engine.select sources profile (chosen operation) = .ok ⟨program, number⟩ ∧
        program.diagram number = diagram := by
  unfold circuit
  extract_lets choose
  have hchoose : choose = chosen operation := rfl
  rw [hchoose]
  cases engine.select sources profile (chosen operation) with
  | error fault => simp
  | ok selection =>
      obtain ⟨program, number⟩ := selection
      simp

/-- A circuit comes back from the line of its reply, unless a chain of 61 nested calls leads from
the drawn operation to one that has statements: then the line is no frame. -/
theorem circuit_reply_crosses [JsonWording] {operation : Option QualifiedName} {diagram : Diagram}
    (hreply : engine.circuit sources profile operation = .circuit diagram)
    (hrange : diagram.InRange) {id : Nat} (hid : id < UInt64.size) :
    ∃ program number, compile sources engine.limits = .ok program ∧
      chosen operation program = .ok number ∧
      (¬ LeadsDown program.routines number 61 →
        decodeLine Outbound.decode (Outbound.reply id (.circuit diagram)).line =
          .ok (.reply id (.circuit diagram))) ∧
      (LeadsDown program.routines number 61 →
        decodeLine Outbound.decode (Outbound.reply id (.circuit diagram)).line =
          .error (.malformed (JsonWording.refusal Outbound.decode
            (Outbound.reply id (.circuit diagram)).line))) := by
  obtain ⟨program, number, hselect, rfl⟩ := circuit_eq_circuit_iff.mp hreply
  obtain ⟨hcompile, hchosen, -⟩ := select_ok_iff.mp hselect
  have hmeasured := compile_measured hcompile
  obtain ⟨drawn, hdrawn, after, hdraws⟩ := hmeasured.diagram_draws (chosen_lt hchosen)
  have hroutine := routines_getElem? program number
  rw [hdrawn, Option.map_some] at hroutine
  have hdown : LeadsDown program.routines number 61 ↔
      61 < Box.nestingOfAll (program.diagram number).boxes :=
    (nests_iff_chain hroutine).symm.trans hdraws.lt_nesting_iff.symm
  have hframe : (Outbound.reply id (.circuit (program.diagram number))).InRange := ⟨hid, hrange⟩
  rw [Outbound.decodeLine_line hframe]
  refine ⟨program, number, hcompile, hchosen, fun hshallow => if_pos ?_, fun hdeep => if_neg ?_⟩
  · rw [hdown] at hshallow
    exact (Outbound.circuit_depth_lt_iff id _).mpr (Nat.le_of_not_lt hshallow)
  · rw [hdown] at hdeep
    rw [Outbound.circuit_depth_lt_iff]
    exact Nat.not_le_of_lt hdeep

/-- The diagram of an operation that calls another. -/
def nestedCallDiagram : Diagram :=
  ⟨[⟨0, 0⟩, ⟨1, 0⟩], [{ Box.plain "B" [.ofQubit 1] with
    children := [.plain "|0〉" [.ofQubit 1]] }]⟩

theorem chosen_nestedCall : chosen (some ⟨none, "A"⟩) nestedCallProgram = .ok 0 :=
  rfl

theorem circuit_nestedCall :
    ({} : StatevectorEngine).circuit [nestedCall] .unrestricted (some ⟨none, "A"⟩) =
      .circuit nestedCallDiagram :=
  circuit_eq_circuit_iff.mpr ⟨nestedCallProgram, 0,
    select_ok_iff.mpr ⟨compile_nestedCall, chosen_nestedCall, rfl⟩, by rfl⟩

theorem nestedCallDiagram_inRange : nestedCallDiagram.InRange := by
  have hword : 1 < UInt64.size := by decide
  constructor
  · simp [nestedCallDiagram, Wire.InRange, hword]
  · simp [nestedCallDiagram, Box.plain, Box.InRange, Box.AllInRange, Register.ofQubit,
      Register.InRange, hword]

/-- The line is not refused here, so any words will do. -/
local instance nestedCallWording : JsonWording :=
  .always ""

theorem circuit_reply_crosses_nestedCall :
    ({} : StatevectorEngine).circuit [nestedCall] .unrestricted (some ⟨none, "A"⟩) =
        .circuit nestedCallDiagram ∧ nestedCallDiagram.InRange ∧ 7 < UInt64.size ∧
      decodeLine Outbound.decode (Outbound.reply 7 (.circuit nestedCallDiagram)).line =
        .ok (.reply 7 (.circuit nestedCallDiagram)) := by
  refine ⟨circuit_nestedCall, nestedCallDiagram_inRange, by decide, ?_⟩
  obtain ⟨program, number, hcompile, hchosen, hshallow, -⟩ :=
    circuit_reply_crosses circuit_nestedCall nestedCallDiagram_inRange
      (show 7 < UInt64.size by decide)
  cases Except.ok.inj (hcompile.symm.trans compile_nestedCall)
  cases Except.ok.inj (hchosen.symm.trans chosen_nestedCall)
  refine hshallow fun ⟨chain, hchain, hlength, _⟩ => ?_
  have hshort := (compile_measured compile_nestedCall).chainsBelow_lt
    (show 0 < nestedCallProgram.operations.size by decide) chain.length ⟨chain, hchain, rfl⟩
  rw [hlength] at hshort
  exact absurd hshort (by decide)

end StatevectorEngine

end GateBench.Simulation
