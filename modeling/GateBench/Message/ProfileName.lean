import GateBench.Message.Request
import GateBench.Text.Lowercase

/-!
Profiles as they are named by hand.
-/

namespace GateBench.Message

/-- A profile by its name in any case; `full` names the one that allows everything.  The failure is
told in words. -/
def Profile.ofName (name : String) : Except String Profile :=
  match Text.lowercase name with
  | "base" => .ok .base
  | "unrestricted" | "full" => .ok .unrestricted
  | other =>
    .error ("Unknown target profile: '" ++ other ++ "'. Available: base, unrestricted")

end GateBench.Message
