import GateBench.Json.Decode
import GateBench.Message.Response

/-!
The JSON form of requests, replies and what they carry.
-/

namespace GateBench

open GateBench.Json

/-- A source. -/
def Source.toJson (source : Source) : Json :=
  .ofMembers [("name", .ofString source.name), ("contents", .ofString source.text)]

/-- Decode a source. -/
def Source.decode : Decoder Source :=
  decodeRecord ["name", "contents"] fun fields => do
    return ⟨← fields.required "name" decodeText, ← fields.required "contents" decodeText⟩

/-- The members of a name. -/
def QualifiedName.members (name : QualifiedName) : List (String × Json) :=
  optionalMember "namespace" .ofString name.scope ++ [("name", .ofString name.name)]

/-- A name. -/
def QualifiedName.toJson (name : QualifiedName) : Json :=
  .ofMembers name.members

/-- Decode a name. -/
def QualifiedName.decode : Decoder QualifiedName :=
  decodeRecord ["namespace", "name"] fun fields => do
    return ⟨← fields.optional "namespace" decodeText, ← fields.required "name" decodeText⟩

namespace Message

/-- A profile. -/
def Profile.toJson (profile : Profile) : Json :=
  .ofString profile.text

/-- Decode a profile. -/
def Profile.decode : Decoder Profile :=
  decodeChoice [("base", .base), ("unrestricted", .unrestricted)]

/-- A request, its kind first. -/
def Request.toJson (request : Request) : Json :=
  let sources := ("sources", Json.array (request.sources.map Source.toJson))
  .ofMembers (("kind", .ofString request.kind.text) :: match request with
    | .check _ profile => [sources, ("profile", profile.toJson)]
    | .run _ entry shots profile =>
      [sources] ++ optionalMember "entry" .ofString entry ++
        [("shots", .ofNat shots), ("profile", profile.toJson)]
    | .circuit _ profile operation =>
      [sources, ("profile", profile.toJson)] ++
        optionalMember "operation" QualifiedName.toJson operation)

/-- Decode a request. -/
def Request.decode : Decoder Request :=
  decodeTagged "kind"
    [("check", decodeRecord ["sources", "profile"] fun fields => do
        return .check (← fields.required "sources" (decodeList Source.decode))
          (← fields.withDefault "profile" .unrestricted Profile.decode)),
      ("run", decodeRecord ["sources", "entry", "shots", "profile"] fun fields => do
        return .run (← fields.required "sources" (decodeList Source.decode))
          (← fields.optional "entry" decodeText)
          (← fields.required "shots" (decodeBelow UInt32.size))
          (← fields.withDefault "profile" .unrestricted Profile.decode)),
      ("circuit", decodeRecord ["sources", "profile", "operation"] fun fields => do
        return .circuit (← fields.required "sources" (decodeList Source.decode))
          (← fields.withDefault "profile" .unrestricted Profile.decode)
          (← fields.optional "operation" QualifiedName.decode))]

/-- A run event. -/
def RunEvent.toJson (event : RunEvent) : Json :=
  .ofMembers [("outcome_label", .ofString event.label), ("sequence_index", .ofNat event.index)]

/-- Decode a run event. -/
def RunEvent.decode : Decoder RunEvent :=
  decodeRecord ["outcome_label", "sequence_index"] fun fields => do
    return ⟨← fields.required "outcome_label" decodeText,
      ← fields.required "sequence_index" (decodeBelow UInt32.size)⟩

/-- The written name of a severity. -/
def Severity.text : Severity → String
  | .error => "error"
  | .warning => "warning"

/-- Decode a severity. -/
def Severity.decode : Decoder Severity :=
  decodeChoice [("error", .error), ("warning", .warning)]

/-- A diagnostic. -/
def Diagnostic.toJson (diagnostic : Diagnostic) : Json :=
  .ofMembers ([("severity", .ofString diagnostic.severity.text),
      ("message", .ofString diagnostic.message)] ++
    optionalMember "source" .ofString diagnostic.source ++
    optionalMember "line" .ofNat diagnostic.line)

/-- Decode a diagnostic. -/
def Diagnostic.decode : Decoder Diagnostic :=
  decodeRecord ["severity", "message", "source", "line"] fun fields => do
    return ⟨← fields.required "severity" Severity.decode, ← fields.required "message" decodeText,
      ← fields.optional "source" decodeText, ← fields.optional "line" decodeWord⟩

/-- A summary. -/
def OperationSummary.toJson (summary : OperationSummary) : Json :=
  .ofMembers (summary.name.members ++
    [("is_entry", .bool summary.isEntry), ("num_qubits", .ofNat summary.qubits)])

/-- Decode a summary. -/
def OperationSummary.decode : Decoder OperationSummary :=
  decodeRecord ["namespace", "name", "is_entry", "num_qubits"] fun fields => do
    return ⟨⟨← fields.optional "namespace" decodeText, ← fields.required "name" decodeText⟩,
      ← fields.required "is_entry" decodeBool, ← fields.required "num_qubits" decodeWord⟩

/-- Decode a kind of fault. -/
def FaultKind.decode : Decoder FaultKind :=
  decodeChoice ([FaultKind.compile, .runtime, .profile, .cancelled, .invalidRequest].map
    fun kind => (kind.text, kind))

/-- A fault. -/
def WorkerFault.toJson (fault : WorkerFault) : Json :=
  .ofMembers ([("kind", .ofString fault.kind.text), ("message", .ofString fault.message)] ++
    listMember "diagnostics" Diagnostic.toJson fault.diagnostics)

/-- Decode a fault. -/
def WorkerFault.decode : Decoder WorkerFault :=
  decodeRecord ["kind", "message", "diagnostics"] fun fields => do
    return ⟨← fields.required "kind" FaultKind.decode, ← fields.required "message" decodeText,
      ← fields.withDefault "diagnostics" [] (decodeList Diagnostic.decode)⟩

/-- The written name of a kind of register. -/
def RegisterKind.text : RegisterKind → String
  | .qubit => "qubit"
  | .classical => "classical"

/-- A register. -/
def Register.toJson (register : Register) : Json :=
  .ofMembers ([("qId", .ofNat register.qubit), ("type", .ofString register.kind.text)] ++
    optionalMember "cId" .ofNat register.slot)

/-- Decode a register. -/
def Register.decode : Decoder Register :=
  decodeRecord ["qId", "type", "cId"] fun fields => do
    return ⟨← fields.required "qId" decodeWord,
      ← fields.required "type" (decodeChoice [("qubit", .qubit), ("classical", .classical)]),
      ← fields.optional "cId" decodeWord⟩

mutual

/-- A box. -/
def Box.toJson : Box → Json
  | ⟨gate, argument, isControlled, isMeasurement, controls, targets, children⟩ =>
    .ofMembers ([("gate", .ofString gate)] ++ optionalMember "displayArgs" .ofString argument ++
      [("isControlled", .bool isControlled), ("isMeasurement", .bool isMeasurement)] ++
      listMember "controls" Register.toJson controls ++
      [("targets", .array (targets.map Register.toJson))] ++
      listMember "children" id (Box.allToJson children))

/-- Boxes in order. -/
def Box.allToJson : List Box → List Json
  | [] => []
  | box :: others => box.toJson :: Box.allToJson others

end

/-- Decode a box whose contents nest boxes at most `nesting` deep. -/
def Box.decodeNested : Nat → Decoder Box
  | 0 => fun _ _ => none
  | nesting + 1 =>
    decodeRecord
      ["gate", "displayArgs", "isControlled", "isMeasurement", "controls", "targets", "children"]
      fun fields => do
        return ⟨← fields.required "gate" decodeText, ← fields.optional "displayArgs" decodeText,
          ← fields.withDefault "isControlled" false decodeBool,
          ← fields.withDefault "isMeasurement" false decodeBool,
          ← fields.withDefault "controls" [] (decodeList Register.decode),
          ← fields.required "targets" (decodeList Register.decode),
          ← fields.withDefault "children" [] (decodeList (Box.decodeNested nesting))⟩

/-- Decode a box.  Every box takes a level of nesting, so the levels left bound its contents. -/
def Box.decode : Decoder Box := fun place json =>
  Box.decodeNested place.levels place json

/-- A wire. -/
def Wire.toJson (wire : Wire) : Json :=
  .ofMembers [("id", .ofNat wire.qubit), ("numResults", .ofNat wire.results)]

/-- Decode a wire. -/
def Wire.decode : Decoder Wire :=
  decodeRecord ["id", "numResults"] fun fields => do
    return ⟨← fields.required "id" decodeWord, ← fields.required "numResults" decodeWord⟩

/-- A diagram. -/
def Diagram.toJson (diagram : Diagram) : Json :=
  .ofMembers [("qubits", .array (diagram.wires.map Wire.toJson)),
    ("operations", .array (diagram.boxes.map Box.toJson))]

/-- Decode a diagram. -/
def Diagram.decode : Decoder Diagram :=
  decodeRecord ["qubits", "operations"] fun fields => do
    return ⟨← fields.required "qubits" (decodeList Wire.decode),
      ← fields.required "operations" (decodeList Box.decode)⟩

/-- A reply, its kind first. -/
def Response.toJson (response : Response) : Json :=
  .ofMembers (("kind", .ofString response.kindText) :: match response with
    | .checked diagnostics operations =>
      [("diagnostics", .array (diagnostics.map Diagnostic.toJson)),
        ("operations", .array (operations.map OperationSummary.toJson))]
    | .runComplete shots => [("shots", .ofNat shots)]
    | .circuit diagram => [("circuit", diagram.toJson)]
    | .failed fault => [("error", fault.toJson)])

/-- Decode a reply. -/
def Response.decode : Decoder Response :=
  decodeTagged "kind"
    [("checked", decodeRecord ["diagnostics", "operations"] fun fields => do
        return .checked (← fields.required "diagnostics" (decodeList Diagnostic.decode))
          (← fields.required "operations" (decodeList OperationSummary.decode))),
      ("run_complete", decodeRecord ["shots"] fun fields => do
        return .runComplete (← fields.required "shots" (decodeBelow UInt32.size))),
      ("circuit", decodeRecord ["circuit"] fun fields => do
        return .circuit (← fields.required "circuit" Diagram.decode)),
      ("failed", decodeRecord ["error"] fun fields => do
        return .failed (← fields.required "error" WorkerFault.decode))]

end Message

end GateBench
