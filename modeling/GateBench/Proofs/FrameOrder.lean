import GateBench.Message.Frame
import GateBench.Proofs.MemberOrder
import GateBench.Proofs.TrimmedValues

/-!
The order of members in frames.  Whichever frame a line holds, its members may come in any order;
the one that says what the others mean may be the last of them.
-/

namespace GateBench

open Json

/-! ### Requests -/

theorem Source.decode_ignoresOrder : Source.decode.IgnoresOrder := by
  refine decodeRecord_ignoresOrder fun hagree => ?_
  simp only [hagree.required "name" decodeText_ignoresOrder,
    hagree.required "contents" decodeText_ignoresOrder]

theorem QualifiedName.decode_ignoresOrder : QualifiedName.decode.IgnoresOrder := by
  refine decodeRecord_ignoresOrder fun hagree => ?_
  simp only [hagree.optional "namespace" decodeText_ignoresOrder,
    hagree.required "name" decodeText_ignoresOrder]

namespace Message

theorem Profile.decode_ignoresOrder : Profile.decode.IgnoresOrder :=
  decodeChoice_ignoresOrder

theorem Request.decode_ignoresOrder : Request.decode.IgnoresOrder := by
  have hsources := decodeList_ignoresOrder Source.decode_ignoresOrder
  refine decodeTagged_ignoresOrder ?_
  simp only [List.forall_mem_cons, List.not_mem_nil, false_implies, implies_true, and_true]
  refine ⟨?_, ?_, ?_⟩ <;> refine decodeRecord_ignoresOrder fun hagree => ?_
  · simp only [hagree.required "sources" hsources,
      hagree.withDefault "profile" .unrestricted Profile.decode_ignoresOrder]
  · simp only [hagree.required "sources" hsources, hagree.optional "entry" decodeText_ignoresOrder,
      hagree.required "shots" (decodeBelow_ignoresOrder UInt32.size),
      hagree.withDefault "profile" .unrestricted Profile.decode_ignoresOrder]
  · simp only [hagree.required "sources" hsources,
      hagree.withDefault "profile" .unrestricted Profile.decode_ignoresOrder,
      hagree.optional "operation" QualifiedName.decode_ignoresOrder]

/-! ### Replies -/

theorem RunEvent.decode_ignoresOrder : RunEvent.decode.IgnoresOrder := by
  refine decodeRecord_ignoresOrder fun hagree => ?_
  simp only [hagree.required "outcome_label" decodeText_ignoresOrder,
    hagree.required "sequence_index" (decodeBelow_ignoresOrder UInt32.size)]

theorem Diagnostic.decode_ignoresOrder : Diagnostic.decode.IgnoresOrder := by
  have hseverity : Severity.decode.IgnoresOrder := decodeChoice_ignoresOrder
  refine decodeRecord_ignoresOrder fun hagree => ?_
  simp only [hagree.required "severity" hseverity,
    hagree.required "message" decodeText_ignoresOrder,
    hagree.optional "source" decodeText_ignoresOrder,
    hagree.optional "line" decodeWord_ignoresOrder]

theorem OperationSummary.decode_ignoresOrder : OperationSummary.decode.IgnoresOrder := by
  refine decodeRecord_ignoresOrder fun hagree => ?_
  simp only [hagree.optional "namespace" decodeText_ignoresOrder,
    hagree.required "name" decodeText_ignoresOrder,
    hagree.required "is_entry" decodeBool_ignoresOrder,
    hagree.required "num_qubits" decodeWord_ignoresOrder]

theorem WorkerFault.decode_ignoresOrder : WorkerFault.decode.IgnoresOrder := by
  have hkind : FaultKind.decode.IgnoresOrder := decodeChoice_ignoresOrder
  have hdiagnostics := decodeList_ignoresOrder Diagnostic.decode_ignoresOrder
  refine decodeRecord_ignoresOrder fun hagree => ?_
  simp only [hagree.required "kind" hkind, hagree.required "message" decodeText_ignoresOrder,
    hagree.withDefault "diagnostics" [] hdiagnostics]

theorem Register.decode_ignoresOrder : Register.decode.IgnoresOrder := by
  refine decodeRecord_ignoresOrder fun hagree => ?_
  simp only [hagree.required "qId" decodeWord_ignoresOrder,
    hagree.required "type" decodeChoice_ignoresOrder,
    hagree.optional "cId" decodeWord_ignoresOrder]

theorem Box.decodeNested_ignoresOrder (nesting : Nat) :
    (Box.decodeNested nesting).IgnoresOrder := by
  induction nesting with
  | zero => exact fun _ _ _ _ => rfl
  | succ nesting ih =>
      have hregisters := decodeList_ignoresOrder Register.decode_ignoresOrder
      refine decodeRecord_ignoresOrder fun hagree => ?_
      simp only [hagree.required "gate" decodeText_ignoresOrder,
        hagree.optional "displayArgs" decodeText_ignoresOrder,
        hagree.withDefault "isControlled" false decodeBool_ignoresOrder,
        hagree.withDefault "isMeasurement" false decodeBool_ignoresOrder,
        hagree.withDefault "controls" [] hregisters, hagree.required "targets" hregisters,
        hagree.withDefault "children" [] (decodeList_ignoresOrder ih)]

theorem Box.decode_ignoresOrder : Box.decode.IgnoresOrder :=
  fun place _ _ h => Box.decodeNested_ignoresOrder place.levels place h

theorem Wire.decode_ignoresOrder : Wire.decode.IgnoresOrder := by
  refine decodeRecord_ignoresOrder fun hagree => ?_
  simp only [hagree.required "id" decodeWord_ignoresOrder,
    hagree.required "numResults" decodeWord_ignoresOrder]

theorem Diagram.decode_ignoresOrder : Diagram.decode.IgnoresOrder := by
  refine decodeRecord_ignoresOrder fun hagree => ?_
  simp only [hagree.required "qubits" (decodeList_ignoresOrder Wire.decode_ignoresOrder),
    hagree.required "operations" (decodeList_ignoresOrder Box.decode_ignoresOrder)]

theorem Response.decode_ignoresOrder : Response.decode.IgnoresOrder := by
  refine decodeTagged_ignoresOrder ?_
  simp only [List.forall_mem_cons, List.not_mem_nil, false_implies, implies_true, and_true]
  refine ⟨?_, ?_, ?_, ?_⟩ <;> refine decodeRecord_ignoresOrder fun hagree => ?_
  · simp only [
      hagree.required "diagnostics" (decodeList_ignoresOrder Diagnostic.decode_ignoresOrder),
      hagree.required "operations" (decodeList_ignoresOrder OperationSummary.decode_ignoresOrder)]
  · simp only [hagree.required "shots" (decodeBelow_ignoresOrder UInt32.size)]
  · simp only [hagree.required "circuit" Diagram.decode_ignoresOrder]
  · simp only [hagree.required "error" WorkerFault.decode_ignoresOrder]

/-! ### Frames -/

theorem Inbound.decode_ignoresOrder : Inbound.decode.IgnoresOrder := by
  refine decodeRecord_ignoresOrder fun hagree => ?_
  simp only [hagree.required "id" decodeWord_ignoresOrder,
    hagree.required "request" Request.decode_ignoresOrder]

theorem Outbound.decode_ignoresOrder : Outbound.decode.IgnoresOrder := by
  refine decodeTagged_ignoresOrder ?_
  simp only [List.forall_mem_cons, List.not_mem_nil, false_implies, implies_true, and_true]
  refine ⟨?_, ?_⟩ <;> refine decodeRecord_ignoresOrder fun hagree => ?_
  · simp only [hagree.required "id" decodeWord_ignoresOrder,
      hagree.required "event" RunEvent.decode_ignoresOrder]
  · simp only [hagree.required "id" decodeWord_ignoresOrder,
      hagree.required "response" Response.decode_ignoresOrder]

/-! ### Lines -/

section

variable [JsonWording]

/-- A text that holds a value is decoded as that value. -/
theorem decodeLine_of_read? {α : Type} {text : String} {json : Json}
    (hread : read? text = some json) (decoder : Decoder α) :
    decodeLine decoder text =
      match decoder .outermost json with
      | some frame => .ok frame
      | none => .error (.malformed (JsonWording.refusal decoder (Text.trim text))) := by
  have htrim := read?_trim hread
  have hempty : (Text.trim text).isEmpty = false := by
    rw [Bool.eq_false_iff, ne_eq, String.isEmpty_iff]
    rintro hempty
    obtain ⟨rest, htaken, -⟩ := read?_eq_some_iff.mp (hempty ▸ htrim)
    exact htaken.ne_nil rfl
  simp only [decodeLine, hempty, htrim]
  rfl

/-- Two lines decode alike: to the same frame, or both to none, each refused in words of its own. -/
inductive DecodeAlike {α : Type} (decoder : Decoder α) (text other : String) : Prop
  | frame {frame : α} (first : decodeLine decoder text = .ok frame)
      (second : decodeLine decoder other = .ok frame)
  | malformed {reason reason' : String}
      (first : decodeLine decoder text = .error (.malformed reason))
      (second : decodeLine decoder other = .error (.malformed reason'))

theorem decodeAlike_of_ignoresOrder {α : Type} {decoder : Decoder α} {text other : String}
    {json shuffled : Json} (hdecoder : decoder.IgnoresOrder) (htext : read? text = some json)
    (hother : read? other = some shuffled) (hreordered : Reordered json shuffled) :
    DecodeAlike decoder text other := by
  have hsame := hdecoder .outermost hreordered
  have hfirst := decodeLine_of_read? htext decoder
  have hsecond := decodeLine_of_read? hother decoder
  cases hdecoded : decoder .outermost json with
  | some frame =>
      rw [hdecoded] at hfirst
      rw [← hsame, hdecoded] at hsecond
      exact .frame hfirst hsecond
  | none =>
      rw [hdecoded] at hfirst
      rw [← hsame, hdecoded] at hsecond
      exact .malformed hfirst hsecond

/-- Texts that hold the same value with the members of its objects in another order decode to the
same frame, or both to none; so it is for requests and for what answers them, however deep the
objects nest, whatever members they repeat, and whichever member says what the others mean. -/
theorem decodeAlike_of_reordered {text other : String} {json shuffled : Json}
    (htext : read? text = some json) (hother : read? other = some shuffled)
    (hreordered : Reordered json shuffled) :
    DecodeAlike Inbound.decode text other ∧ DecodeAlike Outbound.decode text other :=
  ⟨decodeAlike_of_ignoresOrder Inbound.decode_ignoresOrder htext hother hreordered,
    decodeAlike_of_ignoresOrder Outbound.decode_ignoresOrder htext hother hreordered⟩

end

/-- A reply whose tags come first, and a member that is repeated. -/
def taggedFirst : Json :=
  .ofMembers [("type", .ofString "reply"), ("note", .null), ("id", .ofNat 7),
    ("response", .ofMembers [("kind", .ofString "run_complete"), ("shots", .ofNat 3)]),
    ("note", .bool true)]

/-- The same reply with its tags last. -/
def taggedLast : Json :=
  .ofMembers [("note", .bool true),
    ("response", .ofMembers [("shots", .ofNat 3), ("kind", .ofString "run_complete")]),
    ("id", .ofNat 7), ("note", .null), ("type", .ofString "reply")]

theorem reordered_taggedFirst : Reordered taggedFirst taggedLast := by
  have hinner : Reordered
      (.ofMembers [("kind", .ofString "run_complete"), ("shots", .ofNat 3)])
      (.ofMembers [("shots", .ofNat 3), ("kind", .ofString "run_complete")]) :=
    .members (.swap _ _ _)
  have hmember := Reordered.inMember
    [(some "type", .ofString "reply"), (some "note", .null), (some "id", .ofNat 7)]
    (some "response") [(some "note", .bool true)] hinner
  exact hmember.trans (.members (List.reverse_perm _).symm)

/-- The words that refuse both replies as requests. -/
local instance taggedWording : JsonWording :=
  .always "missing field `request` at line 1 column 92"

theorem decodeAlike_of_reordered_tagged :
    read? taggedFirst.compact = some taggedFirst ∧ read? taggedLast.compact = some taggedLast ∧
      Reordered taggedFirst taggedLast ∧
      decodeLine Outbound.decode taggedLast.compact = .ok (.reply 7 (.runComplete 3)) ∧
      ∃ reason, decodeLine Inbound.decode taggedLast.compact = .error (.malformed reason) := by
  have hfirst : read? taggedFirst.compact = some taggedFirst := read?_compact (by decide)
  have hlast : read? taggedLast.compact = some taggedLast := read?_compact (by decide)
  obtain ⟨hinbound, houtbound⟩ := decodeAlike_of_reordered hfirst hlast reordered_taggedFirst
  refine ⟨hfirst, hlast, reordered_taggedFirst, ?_, ?_⟩
  · have hdecoded := decodeLine_of_read? hfirst Outbound.decode
    cases houtbound with
    | frame hown hother => rw [hother, ← hown, hdecoded]; rfl
    | malformed hown _ => cases hown.symm.trans hdecoded
  · have hdecoded := decodeLine_of_read? hfirst Inbound.decode
    cases hinbound with
    | frame hown _ => cases hown.symm.trans hdecoded
    | malformed _ hother => exact ⟨_, hother⟩

end Message

end GateBench
