import GateBench.Dialogue
import GateBench.Message.Request

/-!
Engines, which serve requests.
-/

namespace GateBench

/-- What an engine comes to: a response, or a breakdown, with the words in which the runtime reports
it. -/
abbrev Ending := Except String Message.Response

/-- An engine has a name and serves every request by a dialogue. -/
structure Engine where
  name : String
  serve : Message.Request → Dialogue Ending

namespace Engine

/-- An engine that breaks down instead of telling more than `room` events for a request. -/
def within (room : Nat) (engine : Engine) : Engine :=
  ⟨engine.name, fun request =>
    ((engine.serve request).within room).map fun ending? => ending?.getD (.error "out of room")⟩

/-- An engine that answers every request as if it had run no shots. -/
def confused : Engine :=
  ⟨"odd", fun _ => .done (.ok (.runComplete 0))⟩

/-- An engine that breaks down at every request. -/
def broken (reason : String) : Engine :=
  ⟨"odd", fun _ => .done (.error reason)⟩

end Engine

end GateBench
