/-!
Sources and positions in them.
-/

namespace GateBench

/-- A named text. -/
structure Source where
  name : String
  text : String
deriving DecidableEq, Repr

/-- A line of a source; lines count from one. -/
structure Location where
  source : String
  line : Nat
deriving DecidableEq, Repr

/-- The written form of a position: the source, a colon and the line. -/
def Location.text (location : Location) : String :=
  location.source ++ ":" ++ toString location.line

end GateBench
