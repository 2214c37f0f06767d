import GateBench.Text.Utf8

/-!
Lines of a text: each ends at a line feed, and a carriage return in front of the line feed belongs
to the line end.
-/

namespace GateBench.Text

/-- Split into lines; `line` holds the current line and `lines` those before, both latest first.
What stands behind the last line feed is a line only if it is not empty. -/
def splitLinesFrom {α : Type} [DecidableEq α] (feed carriage : α) (line : List α)
    (lines : List (List α)) : List α → List (List α)
  | [] => (if line = [] then lines else line.reverse :: lines).reverse
  | c :: others =>
    if c = feed then
      let ended := match line with
        | last :: earlier => if last = carriage then earlier else last :: earlier
        | [] => []
      splitLinesFrom feed carriage [] (ended.reverse :: lines) others
    else splitLinesFrom feed carriage (c :: line) lines others

/-- Split into lines, given the line feed and the carriage return. -/
def splitLines {α : Type} [DecidableEq α] (feed carriage : α) (text : List α) :
    List (List α) :=
  splitLinesFrom feed carriage [] [] text

/-- The lines of a text. -/
def linesOf (text : String) : List String :=
  (splitLines '\n' '\r' text.toList).map String.ofList

/-- The text of a line of bytes, or where it stops being UTF-8.  The line feed that ends a line
takes part in that: only a line without one can be incomplete. -/
def lineText (isEnded : Bool) (line : List UInt8) : Except Utf8Fault String :=
  match utf8Fault? (if isEnded then line ++ [10] else line) with
  | some fault => .error fault
  | none => .ok ((String.fromUTF8? ⟨line.toArray⟩).getD "")

/-- The texts of lines, all of them ended but perhaps the last. -/
def lineTexts (isEnded : Bool) : List (List UInt8) → List (Except Utf8Fault String)
  | [] => []
  | [last] => [lineText isEnded last]
  | line :: others => lineText true line :: lineTexts isEnded others

/-- The lines of bytes, as far as they are UTF-8. -/
def linesOfBytes (bytes : ByteArray) : List (Except Utf8Fault String) :=
  lineTexts (bytes.toList.getLast? = some 10) (splitLines 10 13 bytes.toList)

example : linesOf "a\r\n\nb\r" = ["a", "", "b\r"] := by decide
example : linesOf "\n" = [""] := by decide

end GateBench.Text
