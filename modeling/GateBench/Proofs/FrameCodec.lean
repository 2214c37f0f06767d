import GateBench.Message.Frame
import GateBench.Proofs.JsonCodec

/-!
Every frame whose numbers are in range and that does not nest too deep comes back from its line.
-/

namespace GateBench

open GateBench.Json

/-! ### Sources and names -/

theorem Source.carries (source : Source) : Carries Source.decode source.toJson source := by
  refine carries_record (by decide) (List.Sublist.refl _) (by simp) fun place hlevels => ?_
  have hname := required_eq "name" hlevels (by simp) (carries_text source.name)
  have htext := required_eq "contents" hlevels (by simp) (carries_text source.text)
  simp [hname, htext]

theorem QualifiedName.carries (name : QualifiedName) :
    Carries QualifiedName.decode name.toJson name := by
  refine carries_record (by decide) ?_ ?_ fun place hlevels => ?_
  · simpa [QualifiedName.members] using
      (optionalMember_names "namespace" ofString name.scope).append (List.Sublist.refl ["name"])
  · simp [QualifiedName.members]
  have hscope := optional_text_eq "namespace" name.scope hlevels
    (by simp [QualifiedName.members, List.lookup_append])
  have hname := required_eq "name" hlevels
    (by simp [QualifiedName.members, List.lookup_append]) (carries_text name.name)
  simp [hscope, hname]

namespace Message

/-! ### Requests -/

/-- The numbers of a request are in range: shots are below `2 ^ 32`. -/
def Request.InRange : Request → Prop
  | .run _ _ shots _ => shots < UInt32.size
  | _ => True

theorem Profile.carries (profile : Profile) : Carries Profile.decode profile.toJson profile :=
  carries_choice (by cases profile <;> simp [Profile.text])

theorem carries_sources (sources : List Source) :
    Carries (decodeList Source.decode) (.array (sources.map Source.toJson)) sources :=
  carries_list fun source _ => source.carries

theorem Request.carries {request : Request} (hrange : request.InRange) :
    Carries Request.decode request.toJson request := by
  cases request with
  | check sources profile =>
      change Carries _ (.ofMembers (("kind", ofString "check") ::
        [("sources", .array (sources.map Source.toJson)), ("profile", profile.toJson)])) _
      refine carries_variant rfl (by decide) (List.Sublist.refl _) ?_ fun place hlevels => ?_
      · simpa using ⟨fun source _ => source.carries.plain, profile.carries.plain⟩
      have hsources := required_eq "sources" hlevels (by simp) (carries_sources sources)
      have hprofile := withDefault_eq "profile" .unrestricted hlevels
        (by simp) profile.carries
      simp only [hsources, hprofile, Option.bind_eq_bind, Option.bind_some, Option.pure_def]
  | run sources entry shots profile =>
      have hcarries := carries_halfWord hrange
      change Carries _ (.ofMembers (("kind", ofString "run") ::
        ([("sources", .array (sources.map Source.toJson))] ++
          optionalMember "entry" ofString entry ++
          [("shots", ofNat shots), ("profile", profile.toJson)]))) _
      refine carries_variant rfl (by decide) ?_ ?_ fun place hlevels => ?_
      · simpa using (optionalMember_names "entry" ofString entry).append
          (List.Sublist.refl ["shots", "profile"])
      · simpa using ⟨fun source _ => source.carries.plain, isPlain_ofNat.mp hcarries.plain,
          profile.carries.plain⟩
      have hsources := required_eq "sources" hlevels (by simp) (carries_sources sources)
      have hentry := optional_text_eq "entry" entry hlevels (by simp [List.lookup_append])
      have hshots := required_eq "shots" hlevels (by simp [List.lookup_append]) hcarries
      have hprofile := withDefault_eq "profile" .unrestricted hlevels
        (by simp [List.lookup_append]) profile.carries
      simp only [hsources, hentry, hshots, hprofile, Option.bind_eq_bind, Option.bind_some,
        Option.pure_def]
  | circuit sources profile operation =>
      change Carries _ (.ofMembers (("kind", ofString "circuit") ::
        ([("sources", .array (sources.map Source.toJson)), ("profile", profile.toJson)] ++
          optionalMember "operation" QualifiedName.toJson operation))) _
      refine carries_variant rfl (by decide) ?_ ?_ fun place hlevels => ?_
      · simpa using optionalMember_names "operation" QualifiedName.toJson operation
      · simpa using ⟨fun source _ => source.carries.plain, profile.carries.plain,
          fun name _ => name.carries.plain⟩
      have hsources := required_eq "sources" hlevels (by simp) (carries_sources sources)
      have hprofile := withDefault_eq "profile" .unrestricted hlevels
        (by simp) profile.carries
      have hoperation := optional_eq "operation" QualifiedName.toJson operation hlevels (by simp)
        fun name _ => ⟨name.carries, by simp [QualifiedName.toJson, ofMembers]⟩
      simp only [hsources, hprofile, hoperation, Option.bind_eq_bind, Option.bind_some,
        Option.pure_def]

/-! ### Diagnostics, summaries and faults -/

/-- The line of a diagnostic is a number of sixty-four bits. -/
def Diagnostic.InRange (diagnostic : Diagnostic) : Prop :=
  ∀ line ∈ diagnostic.line, line < UInt64.size

theorem Severity.carries (severity : Severity) :
    Carries Severity.decode (ofString severity.text) severity :=
  carries_choice (by cases severity <;> simp [Severity.text])

theorem Diagnostic.carries {diagnostic : Diagnostic} (hrange : diagnostic.InRange) :
    Carries Diagnostic.decode diagnostic.toJson diagnostic := by
  obtain ⟨severity, message, source, line⟩ := diagnostic
  have hcarries : ∀ inner ∈ line, Carries decodeWord (ofNat inner) inner := fun inner hinner =>
    carries_word (hrange inner hinner)
  refine carries_record (by decide) ?_ ?_ fun place hlevels => ?_
  · simpa using (List.Sublist.refl ["severity", "message"]).append
      ((optionalMember_names "source" ofString source).append
        (optionalMember_names "line" ofNat line))
  · simpa using fun inner hinner => hrange inner hinner
  have hseverity := required_eq "severity" hlevels (by simp) severity.carries
  have hmessage := required_eq "message" hlevels (by simp) (carries_text message)
  have hsource := optional_text_eq "source" source hlevels (by simp [List.lookup_append])
  have hline := optional_eq "line" ofNat line hlevels
    (by simp [List.lookup_append]) fun inner hinner => ⟨hcarries inner hinner, by simp [ofNat]⟩
  simp only [hseverity, hmessage, hsource, hline, Option.bind_eq_bind, Option.bind_some,
    Option.pure_def]

/-- The number of qubits of a summary is one of sixty-four bits. -/
def OperationSummary.InRange (summary : OperationSummary) : Prop :=
  summary.qubits < UInt64.size

theorem OperationSummary.carries {summary : OperationSummary} (hrange : summary.InRange) :
    Carries OperationSummary.decode summary.toJson summary := by
  obtain ⟨⟨scope, name⟩, isEntry, qubits⟩ := summary
  change Carries _ (.ofMembers ((optionalMember "namespace" ofString scope ++
    [("name", ofString name)]) ++ [("is_entry", .bool isEntry), ("num_qubits", ofNat qubits)])) _
  have hcarries := carries_word hrange
  refine carries_record (by decide) ?_ ?_ fun place hlevels => ?_
  · simpa using (optionalMember_names "namespace" ofString scope).append
      (List.Sublist.refl ["name", "is_entry", "num_qubits"])
  · simpa using ⟨(carries_bool isEntry).plain, hrange⟩
  have hscope := optional_text_eq "namespace" scope hlevels (by simp [List.lookup_append])
  have hname := required_eq "name" hlevels (by simp [List.lookup_append])
    (carries_text name)
  have hentry := required_eq "is_entry" hlevels (by simp [List.lookup_append])
    (carries_bool isEntry)
  have hqubits := required_eq "num_qubits" hlevels (by simp [List.lookup_append]) hcarries
  simp only [hscope, hname, hentry, hqubits, Option.bind_eq_bind, Option.bind_some,
    Option.pure_def]

/-- The numbers of a fault are in range. -/
def WorkerFault.InRange (fault : WorkerFault) : Prop :=
  ∀ diagnostic ∈ fault.diagnostics, diagnostic.InRange

theorem FaultKind.carries (kind : FaultKind) :
    Carries FaultKind.decode (ofString kind.text) kind :=
  carries_choice (by cases kind <;> simp [FaultKind.text])

theorem WorkerFault.carries {fault : WorkerFault} (hrange : fault.InRange) :
    Carries WorkerFault.decode fault.toJson fault := by
  obtain ⟨kind, message, diagnostics⟩ := fault
  have hcarries := fun diagnostic hmem => Diagnostic.carries (hrange diagnostic hmem)
  refine carries_record (by decide) ?_ ?_ fun place hlevels => ?_
  · simpa using (List.Sublist.refl ["kind", "message"]).append
      (listMember_names "diagnostics" Diagnostic.toJson diagnostics)
  · simpa using fun diagnostic hmem => (hcarries diagnostic hmem).plain
  have hkind := required_eq "kind" hlevels (by simp) kind.carries
  have hmessage := required_eq "message" hlevels (by simp) (carries_text message)
  have hdiagnostics := withDefault_list_eq "diagnostics" hlevels (by simp) hcarries
  simp only [hkind, hmessage, hdiagnostics, Option.bind_eq_bind, Option.bind_some,
    Option.pure_def]

/-! ### Diagrams -/

/-- The numbers of a register have sixty-four bits. -/
def Register.InRange (register : Register) : Prop :=
  register.qubit < UInt64.size ∧ ∀ slot ∈ register.slot, slot < UInt64.size

theorem Register.carries {register : Register} (hrange : register.InRange) :
    Carries Register.decode register.toJson register := by
  obtain ⟨qubit, kind, slot⟩ := register
  obtain ⟨hqubit, hslot⟩ := hrange
  have hkindCarries : Carries (decodeChoice [("qubit", RegisterKind.qubit),
      ("classical", .classical)]) (ofString kind.text) kind :=
    carries_choice (by cases kind <;> simp [RegisterKind.text])
  refine carries_record (by decide) ?_ ?_ fun place hlevels => ?_
  · simpa using (List.Sublist.refl ["qId", "type"]).append (optionalMember_names "cId" ofNat slot)
  · simpa using ⟨hqubit, hslot⟩
  have hqubit := required_eq "qId" hlevels (by simp) (carries_word hqubit)
  have hkind := required_eq "type" hlevels (by simp) hkindCarries
  have hslot := optional_eq "cId" ofNat slot hlevels (by simp)
    fun inner hinner => ⟨carries_word (hslot inner hinner), by simp [ofNat]⟩
  simp only [hqubit, hkind, hslot, Option.bind_eq_bind, Option.bind_some, Option.pure_def]

mutual

/-- The numbers of a box have sixty-four bits. -/
def Box.InRange : Box → Prop
  | ⟨_, _, _, _, controls, targets, children⟩ =>
    (∀ register ∈ controls, register.InRange) ∧ (∀ register ∈ targets, register.InRange) ∧
      Box.AllInRange children

/-- The numbers of all boxes have sixty-four bits. -/
def Box.AllInRange : List Box → Prop
  | [] => True
  | box :: others => box.InRange ∧ Box.AllInRange others

end

theorem Box.allToJson_eq_map (boxes : List Box) : Box.allToJson boxes = boxes.map Box.toJson := by
  induction boxes with
  | nil => rfl
  | cons box others ih => rw [Box.allToJson, ih, List.map_cons]

theorem Box.toJson_eq (gate : String) (argument : Option String)
    (isControlled isMeasurement : Bool) (controls targets : List Register) (children : List Box) :
    Box.toJson ⟨gate, argument, isControlled, isMeasurement, controls, targets, children⟩ =
      .ofMembers ([("gate", ofString gate)] ++ optionalMember "displayArgs" ofString argument ++
        [("isControlled", .bool isControlled), ("isMeasurement", .bool isMeasurement)] ++
        listMember "controls" Register.toJson controls ++
        [("targets", .array (targets.map Register.toJson))] ++
        listMember "children" Box.toJson children) := by
  rw [Box.toJson, Box.allToJson_eq_map]
  simp [listMember]

mutual

/-- How deep boxes nest in a box, which counts itself. -/
def Box.nesting : Box → Nat
  | ⟨_, _, _, _, _, _, children⟩ => Box.nestingOfAll children + 1

/-- How deep boxes nest in a list of boxes. -/
def Box.nestingOfAll : List Box → Nat
  | [] => 0
  | box :: others => max box.nesting (Box.nestingOfAll others)

end

theorem Register.depth_le (register : Register) : register.toJson.depth ≤ 1 := by
  simp [Register.toJson]

theorem registers_depth_le (registers : List Register) :
    (Json.array (registers.map Register.toJson)).depth ≤ 2 := by
  simpa using fun register _ => register.depth_le

theorem Box.depth_toJson_le_iff {gate : String} {argument : Option String}
    {isControlled isMeasurement : Bool} {controls targets : List Register} {children : List Box}
    {levels : Nat} :
    (Box.toJson ⟨gate, argument, isControlled, isMeasurement, controls, targets, children⟩).depth
        ≤ levels ↔
      0 < levels ∧
        (controls ≠ [] → (Json.array (controls.map Register.toJson)).depth ≤ levels - 1) ∧
        (Json.array (targets.map Register.toJson)).depth ≤ levels - 1 ∧
        (children ≠ [] → (Json.array (Box.allToJson children)).depth ≤ levels - 1) := by
  have hempty : Box.allToJson children ≠ [] ↔ children ≠ [] := by
    cases children <;> simp [Box.allToJson]
  simp only [Box.toJson, depth_ofMembers_le_iff, membersWithin_append, membersWithin_cons,
    membersWithin_nil, membersWithin_optionalMember, membersWithin_listMember, depth_ofString,
    hempty, List.map_id, Nat.zero_le, implies_true, true_and, and_true]
  simp [depth, and_assoc]

mutual

/-- Each level of boxes takes two levels of nesting, and what the innermost hold may take one. -/
theorem Box.depth_toJson (box : Box) :
    2 * box.nesting ≤ box.toJson.depth ∧ box.toJson.depth ≤ 2 * box.nesting + 1 := by
  match box with
  | ⟨gate, argument, isControlled, isMeasurement, controls, targets, children⟩ =>
      have hchildren := Box.depthOfAll_toJson children
      have hempty : children = [] → Box.nestingOfAll children = 0 := by
        rintro rfl
        rfl
      have hcontrols := registers_depth_le controls
      have htargets := registers_depth_le targets
      rw [Box.nesting]
      constructor
      · obtain ⟨hpositive, -, hone, hwithin⟩ := Box.depth_toJson_le_iff.mp (Nat.le_refl (Box.toJson
          ⟨gate, argument, isControlled, isMeasurement, controls, targets, children⟩).depth)
        simp only [depth] at hone hwithin
        by_cases hnone : children = []
        · have hzero := hempty hnone
          omega
        · have hdeep := hwithin hnone
          omega
      · refine Box.depth_toJson_le_iff.mpr ⟨by omega, fun _ => by omega, by omega, fun _ => ?_⟩
        simp only [depth]
        omega

theorem Box.depthOfAll_toJson (boxes : List Box) :
    2 * Box.nestingOfAll boxes ≤ depthOfAll (Box.allToJson boxes) ∧
      depthOfAll (Box.allToJson boxes) ≤ 2 * Box.nestingOfAll boxes + 1 := by
  match boxes with
  | [] => simp [Box.nestingOfAll, Box.allToJson, depthOfAll]
  | box :: others =>
      have hbox := Box.depth_toJson box
      have hothers := Box.depthOfAll_toJson others
      simp only [Box.nestingOfAll, Box.allToJson, depthOfAll]
      omega

end

mutual

/-- A box is read back by any decoder that follows boxes as deep as it nests. -/
theorem Box.carriesNested (box : Box) (hrange : box.InRange) {nesting : Nat}
    (hnesting : box.nesting ≤ nesting) : Carries (Box.decodeNested nesting) box.toJson box := by
  match box, nesting with
  | ⟨gate, argument, isControlled, isMeasurement, controls, targets, children⟩, nesting + 1 =>
      obtain ⟨hcontrolsRange, htargetsRange, hchildrenRange⟩ := hrange
      have hcontrolCarries := fun register hmem => Register.carries (hcontrolsRange register hmem)
      have htargetCarries := fun register hmem => Register.carries (htargetsRange register hmem)
      have hchildrenNesting : Box.nestingOfAll children ≤ nesting := by
        simpa [Box.nesting] using hnesting
      have hchildCarries := Box.allCarriesNested children hchildrenRange hchildrenNesting
      rw [Box.toJson_eq]
      refine carries_record (by decide) ?_ ?_ fun place hlevels => ?_
      · simpa using (List.Sublist.refl ["gate"]).append
          ((optionalMember_names "displayArgs" ofString argument).append
            ((List.Sublist.refl ["isControlled", "isMeasurement"]).append
              ((listMember_names "controls" Register.toJson controls).append
                ((List.Sublist.refl ["targets"]).append
                  (listMember_names "children" Box.toJson children)))))
      · simpa using ⟨(carries_bool isControlled).plain, (carries_bool isMeasurement).plain,
          fun register hmem => (hcontrolCarries register hmem).plain,
          fun register hmem => (htargetCarries register hmem).plain,
          fun child hmem => (hchildCarries child hmem).plain⟩
      have hgate := required_eq "gate" hlevels (by simp) (carries_text gate)
      have hargument := optional_text_eq "displayArgs" argument hlevels
        (by simp [List.lookup_append])
      have hcontrolled := withDefault_eq "isControlled" false hlevels
        (by simp [List.lookup_append]) (carries_bool isControlled)
      have hmeasurement := withDefault_eq "isMeasurement" false hlevels
        (by simp [List.lookup_append]) (carries_bool isMeasurement)
      have hcontrols := withDefault_list_eq "controls" hlevels
        (by simp [List.lookup_append]) hcontrolCarries
      have htargets := required_eq "targets" hlevels (by simp [List.lookup_append])
        (carries_list htargetCarries)
      have hchildren := withDefault_list_eq "children" hlevels
        (by simp [List.lookup_append]) hchildCarries
      simp only [hgate, hargument, hcontrolled, hmeasurement, hcontrols, htargets, hchildren,
        Option.bind_eq_bind, Option.bind_some, Option.pure_def]
  | ⟨_, _, _, _, _, _, _⟩, 0 => simp [Box.nesting] at hnesting

theorem Box.allCarriesNested (boxes : List Box) (hrange : Box.AllInRange boxes) {nesting : Nat}
    (hnesting : Box.nestingOfAll boxes ≤ nesting) :
    ∀ box ∈ boxes, Carries (Box.decodeNested nesting) box.toJson box := by
  match boxes with
  | [] => simp
  | box :: others =>
      rw [Box.nestingOfAll, Nat.max_le] at hnesting
      rw [List.forall_mem_cons]
      exact ⟨Box.carriesNested box hrange.1 hnesting.1,
        Box.allCarriesNested others hrange.2 hnesting.2⟩

end

theorem Box.carries {box : Box} (hrange : box.InRange) : Carries Box.decode box.toJson box := by
  refine ⟨(box.carriesNested hrange (Nat.le_refl _)).plain, fun place hlevels => ?_⟩
  have hnesting : box.nesting ≤ place.levels := by
    have hdepth := box.depth_toJson.1
    omega
  exact (box.carriesNested hrange hnesting).decodes place hlevels

/-- The numbers of a wire have sixty-four bits. -/
def Wire.InRange (wire : Wire) : Prop :=
  wire.qubit < UInt64.size ∧ wire.results < UInt64.size

theorem Wire.carries {wire : Wire} (hrange : wire.InRange) :
    Carries Wire.decode wire.toJson wire := by
  refine carries_record (by decide) (List.Sublist.refl _) ?_ fun place hlevels => ?_
  · simpa using ⟨hrange.1, hrange.2⟩
  have hqubit := required_eq "id" hlevels (by simp) (carries_word hrange.1)
  have hresults := required_eq "numResults" hlevels (by simp) (carries_word hrange.2)
  simp only [hqubit, hresults, Option.bind_eq_bind, Option.bind_some, Option.pure_def]

/-- The numbers of a diagram have sixty-four bits. -/
structure Diagram.InRange (diagram : Diagram) : Prop where
  wires : ∀ wire ∈ diagram.wires, wire.InRange
  boxes : ∀ box ∈ diagram.boxes, box.InRange

theorem Diagram.carries {diagram : Diagram} (hrange : diagram.InRange) :
    Carries Diagram.decode diagram.toJson diagram := by
  have hwires := carries_list fun wire hmem => Wire.carries (hrange.wires wire hmem)
  have hboxes := carries_list fun box hmem => Box.carries (hrange.boxes box hmem)
  refine carries_record (by decide) (List.Sublist.refl _) ?_ fun place hlevels => ?_
  · exact plainMembers_cons.mpr
      ⟨hwires.plain, plainMembers_cons.mpr ⟨hboxes.plain, plainMembers_nil⟩⟩
  have hwires := required_eq "qubits" hlevels (by simp) hwires
  have hboxes := required_eq "operations" hlevels (by simp) hboxes
  simp only [hwires, hboxes, Option.bind_eq_bind, Option.bind_some, Option.pure_def]

/-! ### Replies and frames -/

/-- The numbers of a reply are in range. -/
def Response.InRange : Response → Prop
  | .checked diagnostics operations =>
    (∀ diagnostic ∈ diagnostics, diagnostic.InRange) ∧ ∀ summary ∈ operations, summary.InRange
  | .runComplete shots => shots < UInt32.size
  | .circuit diagram => diagram.InRange
  | .failed fault => fault.InRange

theorem Response.carries {response : Response} (hrange : response.InRange) :
    Carries Response.decode response.toJson response := by
  cases response with
  | checked diagnostics operations =>
      change Carries _ (.ofMembers (("kind", ofString "checked") ::
        [("diagnostics", .array (diagnostics.map Diagnostic.toJson)),
          ("operations", .array (operations.map OperationSummary.toJson))])) _
      have hdiagnostics := carries_list fun diagnostic hmem =>
        Diagnostic.carries (hrange.1 diagnostic hmem)
      have hoperations := carries_list fun summary hmem =>
        OperationSummary.carries (hrange.2 summary hmem)
      refine carries_variant rfl (by decide) (List.Sublist.refl _) ?_ fun place hlevels => ?_
      · exact plainMembers_cons.mpr
          ⟨hdiagnostics.plain, plainMembers_cons.mpr ⟨hoperations.plain, plainMembers_nil⟩⟩
      have hdiagnostics := required_eq "diagnostics" hlevels (by simp) hdiagnostics
      have hoperations := required_eq "operations" hlevels (by simp) hoperations
      simp only [hdiagnostics, hoperations, Option.bind_eq_bind, Option.bind_some, Option.pure_def]
  | runComplete shots =>
      change Carries _ (.ofMembers (("kind", ofString "run_complete") ::
        [("shots", ofNat shots)])) _
      have hshots := carries_halfWord hrange
      refine carries_variant rfl (by decide) (List.Sublist.refl _) ?_ fun place hlevels => ?_
      · simpa using isPlain_ofNat.mp hshots.plain
      have hshots := required_eq "shots" hlevels (by simp) hshots
      simp only [hshots, Option.bind_eq_bind, Option.bind_some, Option.pure_def]
  | circuit diagram =>
      change Carries _ (.ofMembers (("kind", ofString "circuit") ::
        [("circuit", diagram.toJson)])) _
      have hdiagram := Diagram.carries hrange
      refine carries_variant rfl (by decide) (List.Sublist.refl _) ?_ fun place hlevels => ?_
      · simpa using hdiagram.plain
      have hdiagram := required_eq "circuit" hlevels (by simp) hdiagram
      simp only [hdiagram, Option.bind_eq_bind, Option.bind_some, Option.pure_def]
  | failed fault =>
      change Carries _ (.ofMembers (("kind", ofString "failed") :: [("error", fault.toJson)])) _
      have hfault := WorkerFault.carries hrange
      refine carries_variant rfl (by decide) (List.Sublist.refl _) ?_ fun place hlevels => ?_
      · simpa using hfault.plain
      have hfault := required_eq "error" hlevels (by simp) hfault
      simp only [hfault, Option.bind_eq_bind, Option.bind_some, Option.pure_def]

/-- The index of an event is below `2 ^ 32`. -/
def RunEvent.InRange (event : RunEvent) : Prop :=
  event.index < UInt32.size

theorem RunEvent.carries {event : RunEvent} (hrange : event.InRange) :
    Carries RunEvent.decode event.toJson event := by
  have hindex := carries_halfWord hrange
  refine carries_record (by decide) (List.Sublist.refl _) ?_ fun place hlevels => ?_
  · simpa using isPlain_ofNat.mp hindex.plain
  have hlabel := required_eq "outcome_label" hlevels (by simp) (carries_text event.label)
  have hindex := required_eq "sequence_index" hlevels (by simp) hindex
  simp only [hlabel, hindex, Option.bind_eq_bind, Option.bind_some, Option.pure_def]

/-- The numbers of an inbound frame are in range. -/
structure Inbound.InRange (frame : Inbound) : Prop where
  id : frame.id < UInt64.size
  request : frame.request.InRange

theorem Inbound.carries {frame : Inbound} (hrange : frame.InRange) :
    Carries Inbound.decode frame.toJson frame := by
  have hrequest := Request.carries hrange.request
  refine carries_record (by decide) (List.Sublist.refl _) ?_ fun place hlevels => ?_
  · simpa using ⟨hrange.id, hrequest.plain⟩
  have hid := required_eq "id" hlevels (by simp) (carries_word hrange.id)
  have hrequest := required_eq "request" hlevels (by simp) hrequest
  simp only [hid, hrequest, Option.bind_eq_bind, Option.bind_some, Option.pure_def]

/-- The numbers of an outbound frame are in range. -/
def Outbound.InRange : Outbound → Prop
  | .event id outcome => id < UInt64.size ∧ outcome.InRange
  | .reply id response => id < UInt64.size ∧ response.InRange

theorem Outbound.carries {frame : Outbound} (hrange : frame.InRange) :
    Carries Outbound.decode frame.toJson frame := by
  cases frame with
  | event id outcome =>
      have houtcome := RunEvent.carries hrange.2
      refine carries_variant rfl (by decide) (List.Sublist.refl _) ?_ fun place hlevels => ?_
      · simpa using ⟨hrange.1, houtcome.plain⟩
      have hid := required_eq "id" hlevels (by simp) (carries_word hrange.1)
      have houtcome := required_eq "event" hlevels (by simp) houtcome
      simp only [hid, houtcome, Option.bind_eq_bind, Option.bind_some, Option.pure_def]
  | reply id response =>
      have hresponse := Response.carries hrange.2
      refine carries_variant rfl (by decide) (List.Sublist.refl _) ?_ fun place hlevels => ?_
      · simpa using ⟨hrange.1, hresponse.plain⟩
      have hid := required_eq "id" hlevels (by simp) (carries_word hrange.1)
      have hresponse := required_eq "response" hlevels (by simp) hresponse
      simp only [hid, hresponse, Option.bind_eq_bind, Option.bind_some, Option.pure_def]

/-! ### Lines -/

theorem trim_eq_self {text : String} (hfirst : ∀ c ∈ text.toList.head?, Text.isBlank c = false)
    (hlast : ∀ c ∈ text.toList.getLast?, Text.isBlank c = false) : Text.trim text = text := by
  have hdrop : ∀ chars : List Char, (∀ c ∈ chars.head?, Text.isBlank c = false) →
      chars.dropWhile Text.isBlank = chars := by
    intro chars hchars
    cases chars with
    | nil => rfl
    | cons c others => simp [hchars c rfl]
  rw [Text.trim, Text.trimChars, hdrop _ hfirst, Text.trimEndChars, hdrop _ (by simpa using hlast)]
  simp

/-- The written form of an object starts and ends with its braces. -/
theorem compact_ofMembers_toList (members : List (String × Json)) :
    ∃ inner, (Json.ofMembers members).compact.toList = '\x7b' :: inner ++ ['\x7d'] :=
  ⟨_, by simp [ofMembers, compact]; rfl⟩

theorem trim_compact_ofMembers (members : List (String × Json)) :
    Text.trim (Json.ofMembers members).compact = (Json.ofMembers members).compact := by
  obtain ⟨inner, hline⟩ := compact_ofMembers_toList members
  refine trim_eq_self ?_ ?_
  · rw [hline]
    rintro c ⟨⟩
    decide
  · rw [hline, List.getLast?_append_of_ne_nil _ (by simp)]
    rintro c ⟨⟩
    decide

/-- A written frame fills one line: it holds no line break. -/
theorem not_lineBreak_of_mem_compact {json : Json} (hplain : json.isPlain) :
    '\n' ∉ json.compact.toList ∧ '\r' ∉ json.compact.toList :=
  ⟨fun hmem => absurd (space_le_of_mem_compact json hplain _ hmem) (by decide),
    fun hmem => absurd (space_le_of_mem_compact json hplain _ hmem) (by decide)⟩

theorem Request.depth_le (request : Request) : request.toJson.depth ≤ 3 := by
  have hsource : ∀ source : Source, source.toJson.depth ≤ 1 := fun source => by
    simp [Source.toJson]
  have hname : ∀ name : QualifiedName, name.toJson.depth ≤ 1 := fun name => by
    simp [QualifiedName.toJson, QualifiedName.members]
  cases request with
  | check sources profile =>
      simp [Request.toJson, Request.sources, Profile.toJson, hsource]
  | run sources entry shots profile =>
      simp [Request.toJson, Request.sources, Profile.toJson, hsource]
  | circuit sources profile operation =>
      simp [Request.toJson, Request.sources, Profile.toJson, hsource]
      exact fun name _ => Nat.le_succ_of_le (hname name)

variable [JsonWording]

/-- What a line decodes to that an object was written on. -/
theorem decodeLine_compact {α : Type} (decoder : Decoder α) {members : List (String × Json)}
    (hplain : (Json.ofMembers members).isPlain) :
    decodeLine decoder (Json.ofMembers members).compact =
      match decoder .outermost (.ofMembers members) with
      | some frame => .ok frame
      | none =>
        .error (.malformed (JsonWording.refusal decoder (Json.ofMembers members).compact)) := by
  have hempty : (Json.ofMembers members).compact ≠ "" := by
    obtain ⟨inner, hline⟩ := compact_ofMembers_toList members
    rw [← String.toList_inj.ne, hline]
    simp
  simp only [decodeLine, trim_compact_ofMembers, read?_compact hplain]
  rw [if_neg (by simpa using hempty)]
  rfl

/-- An outbound frame comes back from its line exactly when it nests fewer than 128 levels. -/
theorem Outbound.decodeLine_line {frame : Outbound} (hrange : frame.InRange) :
    decodeLine Outbound.decode frame.line =
      if frame.toJson.depth < 128 then .ok frame
      else .error (.malformed (JsonWording.refusal Outbound.decode frame.line)) := by
  have hcarries := Outbound.carries hrange
  obtain ⟨members, hmembers⟩ : ∃ members, frame.toJson = .ofMembers members := by
    cases frame <;> exact ⟨_, rfl⟩
  rw [Outbound.line, hmembers, decodeLine_compact _ (hmembers ▸ hcarries.plain), ← hmembers]
  by_cases hdepth : frame.toJson.depth < 128
  · rw [hcarries.decodes .outermost (Nat.le_of_lt_succ hdepth), if_pos hdepth]
  · have hnone : Outbound.decode .outermost frame.toJson = none :=
      decodeTagged_eq_none hcarries.plain (Nat.le_of_not_lt hdepth)
    rw [hnone, if_neg hdepth]

/-- An inbound frame always comes back from its line: nothing in it nests deep. -/
theorem Inbound.decodeLine_line {frame : Inbound} (hrange : frame.InRange) :
    decodeLine Inbound.decode frame.line = .ok frame := by
  have hcarries := Inbound.carries hrange
  have hdepth : frame.toJson.depth ≤ 127 := by
    have hrequest := frame.request.depth_le
    simp only [Inbound.toJson, depth_ofMembers_le_iff, membersWithin_cons, membersWithin_nil,
      depth_ofNat, and_true]
    omega
  rw [Inbound.line, Inbound.toJson, decodeLine_compact _ hcarries.plain]
  have hdecodes := hcarries.decodes .outermost hdepth
  rw [Inbound.toJson] at hdecodes
  rw [hdecodes]

end Message

end GateBench
