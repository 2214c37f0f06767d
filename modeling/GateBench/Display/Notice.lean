import GateBench.Histogram.Basic
import GateBench.Message.Frame

/-!
Notices: what is shown to the user, a histogram so far, a circuit, or a failure.
-/

namespace GateBench.Display

open GateBench.Json GateBench.Message

/-- A diagram, or the reason there is none. -/
inductive CircuitOutcome where
  | circuit (diagram : Diagram)
  | error (message : String)
deriving Repr

/-- The result of drawing a circuit. -/
structure CircuitResult where
  title : String
  subtitle : String
  outcome : CircuitOutcome
deriving Repr

/-- A text, or another one in place of blanks. -/
def orIfBlank (replacement text : String) : String :=
  if (Text.trim text).isEmpty then replacement else text

/-- The title of a circuit without one. -/
def defaultTitle : String :=
  "Circuit"

/-- The subtitle of a circuit without one. -/
def defaultSubtitle : String :=
  "qbridge"

/-- A result whose title and subtitle are never blank. -/
def CircuitResult.titled (title subtitle : String) (outcome : CircuitOutcome) : CircuitResult :=
  ⟨orIfBlank defaultTitle title, orIfBlank defaultSubtitle subtitle, outcome⟩

/-- The diagram of a result that has one. -/
def CircuitResult.diagram? (result : CircuitResult) : Option Diagram :=
  match result.outcome with
  | .circuit diagram => some diagram
  | .error _ => none

/-- The reason why a result has no diagram. -/
def CircuitResult.error? (result : CircuitResult) : Option String :=
  match result.outcome with
  | .circuit _ => none
  | .error message => some message

/-- What is posted to a display. -/
inductive Notice where
  | update (buckets : List (String × Nat))
  | circuit (result : CircuitResult)
  | error (title message : String)
deriving Repr

/-- The notice of a histogram. -/
def Notice.ofHistogram (histogram : Histogram) : Notice :=
  .update histogram.buckets

/-- The written name of the kind of a notice. -/
def Notice.command : Notice → String
  | .update _ => "update"
  | .circuit _ => "circuit"
  | .error .. => "error"

/-- A bucket, as an array of its label and its count. -/
def bucketToJson (bucket : String × Nat) : Json :=
  .array [.ofString bucket.1, .ofNat bucket.2]

/-- Decode a bucket. -/
def decodeBucket : Decoder (String × Nat)
  | place, .array [label, count] => do
    return (← decodeText place label, ← decodeWord place count)
  | _, _ => none

/-- The members of a circuit result. -/
def CircuitResult.members (result : CircuitResult) : List (String × Json) :=
  [("title", .ofString result.title), ("subtitle", .ofString result.subtitle),
    match result.outcome with
    | .circuit diagram => ("circuit", diagram.toJson)
    | .error message => ("error", .ofString message)]

/-- A notice, its command first. -/
def Notice.toJson (notice : Notice) : Json :=
  .ofMembers (("command", .ofString notice.command) :: match notice with
    | .update buckets => [("buckets", .array (buckets.map bucketToJson))]
    | .circuit result => result.members
    | .error title message => [("title", .ofString title), ("message", .ofString message)])

/-- Decode the outcome of a circuit result: the first member of either name decides, and the others
of these names are passed over. -/
def decodeOutcome (place : Place) (members : List (Option String × Json)) :
    Option CircuitOutcome := do
  let (name, value) ← members.find? fun (name, _) =>
    name = some "circuit" || name = some "error"
  if name = some "circuit" then return .circuit (← Diagram.decode place value)
  else return .error (← decodeText place value)

/-- Decode a circuit result, which has to be an object. -/
def CircuitResult.decode : Decoder CircuitResult
  | place, .object members => do
    let fields ← takeFields ["title", "subtitle"] place (.object members)
    return ⟨← fields.required "title" decodeText, ← fields.required "subtitle" decodeText,
      ← decodeOutcome fields.place members⟩
  | _, _ => none

/-- Decode a notice. -/
def Notice.decode : Decoder Notice :=
  decodeTagged "command"
    [("update", decodeRecord ["buckets"] fun fields => do
        return .update (← fields.required "buckets" (decodeList decodeBucket))),
      ("circuit", fun place json => do return .circuit (← CircuitResult.decode place json)),
      ("error", decodeRecord ["title", "message"] fun fields => do
        return .error (← fields.required "title" decodeText)
          (← fields.required "message" decodeText))]

/-- The line of a notice, without a line end. -/
def Notice.line (notice : Notice) : String :=
  notice.toJson.compact

end GateBench.Display
