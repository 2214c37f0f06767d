import GateBench.Json.Basic

/-!
JSON values whose members stand in the order of their names.
-/

namespace GateBench.Json

/-- Whether a member may stand in front of another. -/
def precedes (first second : Option String × Json) : Bool :=
  first.1.getD "" ≤ second.1.getD ""

mutual

/-- Put the members of all objects into the order of their names. -/
def sorted : Json → Json
  | .array items => .array (sortedItems items)
  | .object members => .object ((sortedMembers members).mergeSort precedes)
  | .null => .null
  | .bool value => .bool value
  | .number value => .number value
  | .string text => .string text

/-- Sort within every item. -/
def sortedItems : List Json → List Json
  | [] => []
  | item :: others => sorted item :: sortedItems others

/-- Sort within the value of every member. -/
def sortedMembers : List (Option String × Json) → List (Option String × Json)
  | [] => []
  | (name, value) :: others => (name, sorted value) :: sortedMembers others

end

end GateBench.Json
