import GateBench.Json.Basic

/-!
Writing JSON: on one line without blanks, or laid out over lines with two blanks for each level.
Only the quote, the backslash and the control characters below `U+0020` are escaped.
-/

namespace GateBench.Json

/-- The lower-case hexadecimal digit of a number below sixteen. -/
def hexDigit (n : Nat) : Char :=
  if n < 10 then Char.ofNat ('0'.toNat + n) else Char.ofNat ('a'.toNat + (n - 10))

/-- A character inside a quoted string. -/
def escape (c : Char) : String :=
  if c = '"' then "\\\""
  else if c = '\\' then "\\\\"
  else if c = '\x08' then "\\b"
  else if c = '\x0c' then "\\f"
  else if c = '\n' then "\\n"
  else if c = '\r' then "\\r"
  else if c = '\t' then "\\t"
  else if c.toNat < 0x20 then
    "\\u00" ++ String.ofList [hexDigit (c.toNat / 16), hexDigit (c.toNat % 16)]
  else c.toString

/-- A quoted string. -/
def quote (text : String) : String :=
  text.foldl (fun written c => written ++ escape c) "\"" ++ "\""

/-- A string, which must be proper to have a written form of its own. -/
def textForm (text : Option String) : String :=
  quote (text.getD "")

/-- The written form of a number. -/
def numeralForm : Numeral → String
  | .natural value => toString value
  | .other text => text

mutual

/-- The written form on one line. -/
def compact : Json → String
  | .null => "null"
  | .bool true => "true"
  | .bool false => "false"
  | .number value => numeralForm value
  | .string text => textForm text
  | .array items => "[" ++ ",".intercalate (compactItems items) ++ "]"
  | .object members => "\x7b" ++ ",".intercalate (compactMembers members) ++ "\x7d"

/-- The written forms of items. -/
def compactItems : List Json → List String
  | [] => []
  | item :: others => compact item :: compactItems others

/-- The written forms of members. -/
def compactMembers : List (Option String × Json) → List String
  | [] => []
  | (name, value) :: others =>
    (textForm name ++ ":" ++ compact value) :: compactMembers others

end

/-- A line break and two blanks for every level. -/
def lineBreak (level : Nat) : String :=
  "\n".pushn ' ' (2 * level)

/-- Laid out items between brackets; without items nothing stands between them. -/
def between (opening closing : String) (level : Nat) (items : List String) : String :=
  if items.isEmpty then opening ++ closing
  else opening ++ lineBreak (level + 1) ++
    ("," ++ lineBreak (level + 1)).intercalate items ++ lineBreak level ++ closing

mutual

/-- The written form over several lines, at a level of nesting. -/
def prettyAt (level : Nat) : Json → String
  | .array items => between "[" "]" level (prettyItems (level + 1) items)
  | .object members => between "\x7b" "\x7d" level (prettyMembers (level + 1) members)
  | .null => "null"
  | .bool true => "true"
  | .bool false => "false"
  | .number value => numeralForm value
  | .string text => textForm text

/-- The laid out forms of items. -/
def prettyItems (level : Nat) : List Json → List String
  | [] => []
  | item :: others => prettyAt level item :: prettyItems level others

/-- The laid out forms of members. -/
def prettyMembers (level : Nat) : List (Option String × Json) → List String
  | [] => []
  | (name, value) :: others =>
    (textForm name ++ ": " ++ prettyAt level value) :: prettyMembers level others

end

/-- The written form over several lines. -/
def pretty (json : Json) : String :=
  prettyAt 0 json

end GateBench.Json
