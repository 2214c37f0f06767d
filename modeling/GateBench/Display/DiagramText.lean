import GateBench.Message.Diagram
import GateBench.Text.Blank

/-!
Diagrams as text, a line per box.
-/

namespace GateBench.Display

open GateBench.Message

/-- A register in short. -/
def registerText (register : Register) : String :=
  match register.kind with
  | .qubit => "q" ++ toString register.qubit
  | .classical => "c" ++ toString register.qubit ++ "[" ++ toString (register.slot.getD 0) ++ "]"

/-- Registers with commas between them. -/
def registersText (registers : List Register) : String :=
  ", ".intercalate (registers.map registerText)

/-- Fill a text with blanks on its right up to `width` characters. -/
def padRight (width : Nat) (text : String) : String :=
  text.pushn ' ' (width - text.length)

/-- Fill a text with blanks on its left up to `width` characters. -/
def padLeft (width : Nat) (text : String) : String :=
  "".pushn ' ' (width - text.length) ++ text

/-- The line of one box, without the boxes in it. -/
def boxLine (depth : Nat) (box : Box) : String :=
  let name := match box.argument with
    | some argument => box.gate ++ "(" ++ argument ++ ")"
    | none => box.gate
  let controls :=
    if box.controls.isEmpty then ""
    else (if box.isMeasurement then " from " else " ctrl ") ++ registersText box.controls
  Text.trimEnd ("".pushn ' ' (2 * depth) ++ padRight 12 name ++ " " ++
    registersText box.targets ++ controls)

mutual

/-- The lines of a box and of the boxes in it, indented by depth. -/
def boxLines (depth : Nat) : Box → List String
  | ⟨gate, argument, isControlled, isMeasurement, controls, targets, children⟩ =>
    boxLine depth ⟨gate, argument, isControlled, isMeasurement, controls, targets, []⟩ ::
      boxesLines (depth + 1) children

/-- The lines of boxes one after the other. -/
def boxesLines (depth : Nat) : List Box → List String
  | [] => []
  | box :: others => boxLines depth box ++ boxesLines depth others

end

/-- The lines of a diagram: its wires with their results, then its boxes. -/
def diagramLines (diagram : Diagram) : List String :=
  let results := diagram.wires.map fun wire =>
    "q" ++ toString wire.qubit ++ "=" ++ toString wire.results
  let listed := if results.isEmpty then "none" else ", ".intercalate results
  (toString diagram.wires.length ++ " qubits (results: " ++ listed ++ ")") ::
    boxesLines 1 diagram.boxes

end GateBench.Display
