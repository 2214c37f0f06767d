import GateBench.Json.Printer
import GateBench.Json.Reader
import GateBench.Message.Codec
import GateBench.Text.Blank

/-!
Frames: what crosses the boundary between a host and a worker, one JSON object to a line.
-/

namespace GateBench.Message

open GateBench.Json

/-- A frame from host to worker. -/
structure Inbound where
  id : Nat
  request : Request
deriving DecidableEq, Repr

/-- A frame from worker to host: an event of the request of an id, or the reply to it. -/
inductive Outbound where
  | event (id : Nat) (outcome : RunEvent)
  | reply (id : Nat) (response : Response)
deriving Repr

/-- The id of the request that a frame belongs to. -/
def Outbound.id : Outbound → Nat
  | .event id _ | .reply id _ => id

/-- Why a line is no frame, or not the frame that was expected.  A malformed line comes with the
reason that the JSON library gives. -/
inductive FrameError where
  | malformed (reason : String)
  | empty
  | idMismatch (expected got : Nat)
  | unexpectedReply (request : RequestKind) (got : String)
deriving DecidableEq, Repr

/-- A frame error in words. -/
def FrameError.message : FrameError → String
  | .malformed reason => "Malformed frame: " ++ reason
  | .empty => "Empty frame"
  | .idMismatch expected got =>
    "Reply id " ++ toString got ++ " does not match in-flight request " ++ toString expected
  | .unexpectedReply request got =>
    "Unexpected '" ++ got ++ "' reply to a '" ++ request.text ++ "' request"

/-- What a frame error is due to, as far as that is an error of its own. -/
def FrameError.cause? : FrameError → Option String
  | .malformed reason => some reason
  | _ => none

/-- An inbound frame. -/
def Inbound.toJson (frame : Inbound) : Json :=
  .ofMembers [("id", .ofNat frame.id), ("request", frame.request.toJson)]

/-- Decode an inbound frame. -/
def Inbound.decode : Decoder Inbound :=
  decodeRecord ["id", "request"] fun fields => do
    return ⟨← fields.required "id" decodeWord, ← fields.required "request" Request.decode⟩

/-- An outbound frame, its type first. -/
def Outbound.toJson : Outbound → Json
  | .event id outcome =>
    .ofMembers [("type", .ofString "event"), ("id", .ofNat id), ("event", outcome.toJson)]
  | .reply id response =>
    .ofMembers [("type", .ofString "reply"), ("id", .ofNat id), ("response", response.toJson)]

/-- Decode an outbound frame. -/
def Outbound.decode : Decoder Outbound :=
  decodeTagged "type"
    [("event", decodeRecord ["id", "event"] fun fields => do
        return .event (← fields.required "id" decodeWord)
          (← fields.required "event" RunEvent.decode)),
      ("reply", decodeRecord ["id", "response"] fun fields => do
        return .reply (← fields.required "id" decodeWord)
          (← fields.required "response" Response.decode))]

/-- The line of a frame, without a line end. -/
def Inbound.line (frame : Inbound) : String :=
  frame.toJson.compact

/-- The line of a frame, without a line end. -/
def Outbound.line (frame : Outbound) : String :=
  frame.toJson.compact

/-- The words in which the JSON library refuses a text that a decoder cannot read.  They are the
library's own, and whether a text is refused does not depend on them; they stand in messages only,
so every development below holds of any words. -/
class JsonWording where
  refusal : {α : Type} → Decoder α → String → String

/-- The same words for every text. -/
abbrev JsonWording.always (reason : String) : JsonWording where
  refusal _ _ := reason

/-- Decode a line, trimmed of blanks. -/
def decodeLine [JsonWording] {α : Type} (decoder : Decoder α) (line : String) :
    Except FrameError α :=
  let trimmed := Text.trim line
  if trimmed.isEmpty then .error .empty
  else
    match Json.read? trimmed >>= decoder .outermost with
    | some frame => .ok frame
    | none => .error (.malformed (JsonWording.refusal decoder trimmed))

/-- Accept a frame only for the request in flight. -/
def Outbound.expectId (frame : Outbound) (expected : Nat) : Except FrameError Outbound :=
  if frame.id = expected then .ok frame else .error (.idMismatch expected frame.id)

/-- Accept a reply only to the kind of request that was sent. -/
def Response.expectKind (response : Response) (kind : RequestKind) :
    Except FrameError Response :=
  if response.answers kind then .ok response
  else .error (.unexpectedReply kind response.kindText)

/-- The id that a line states, whether or not the line is a frame: the last member of that name in
an object, if it is a number of sixty-four bits.  Only the blanks of JSON may stand around the
object. -/
def statedId? (line : String) : Option Nat := do
  match ← Json.read? line with
  | .object members =>
    if (Json.object members).isSound Place.outermost.levels then
      let (_, value) ← (members.filter (·.1 = some "id")).getLast?
      decodeWord .outermost value
    else none
  | _ => none

end GateBench.Message
