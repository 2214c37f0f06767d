import GateBench.Yaml.Cursor
import GateBench.Yaml.Plain

/-!
Writing members of block mappings in the YAML format.  A text is written plain where that reads back
as the same text; else between single quotes; else, with its characters escaped, between double
quotes.  A text with line feeds is written as a block of lines where that can be done.
-/

namespace GateBench.Yaml

/-- How a text is written. -/
inductive TextForm where
  | plain
  | singleQuoted
  | doubleQuoted
  | literal
deriving DecidableEq, Repr

/-- Whether a character can be written as it is. -/
def isPrintable (c : Char) : Bool :=
  c = '\n' || (' ' ≤ c && c ≤ '~') || ('\u00a0' ≤ c && c ≤ '\ufffd' && c ≠ '\ufeff')

/-- The characters that mean something else at the start of a plain scalar. -/
def isIndicator (c : Char) : Bool :=
  ['#', ',', '[', ']', '\x7b', '\x7d', '&', '*', '!', '|', '>', '\'', '"', '%', '@',
    '\x60'].contains c

/-- Whether a colon in front of a blank, or the sign of a comment behind one, is in a text. -/
def holdsMark : List Char → Bool
  | [] => false
  | c :: rest =>
    (c = ':' && endsWord rest) || (endsWord [c] && rest.head? = some '#') || holdsMark rest

/-- Whether a text would not read as a scalar if it were written plain. -/
def holdsIndicator (chars : List Char) : Bool :=
  ['-', '-', '-'].isPrefixOf chars || ['.', '.', '.'].isPrefixOf chars || holdsMark chars ||
    match chars with
    | [] => false
    | c :: rest => isIndicator c || ((c = '?' || c = ':' || c = '-') && endsWord rest)

/-- Whether a character of one kind directly in front of one of another is in a text. -/
def holdsPair (first second : Char → Bool) (chars : List Char) : Bool :=
  (chars.zip (chars.drop 1)).any fun (a, b) => first a && second b

/-- How to write a text. -/
def formOf (text : String) : TextForm :=
  let chars := text.toList
  let isSpace (c : Char) := c = ' '
  let isSpecial := !chars.all isPrintable || holdsPair isSpace isBreak chars
  let isOpen (c : Char) := isSpace c || isBreak c
  if isAmbiguous text then .singleQuoted
  else if chars.contains '\n' then
    if isSpecial || chars.getLast?.any isSpace then .doubleQuoted else .literal
  else if isSpecial || holdsPair isBreak isSpace chars then .doubleQuoted
  else if chars.any isBreak || chars.head?.any isOpen || chars.getLast?.any isOpen ||
      holdsIndicator chars then
    .singleQuoted
  else .plain

/-- The character that stands for another behind a backslash. -/
def escapeLetter? (c : Char) : Option Char :=
  [('\x00', '0'), ('\x07', 'a'), ('\x08', 'b'), ('\t', 't'), ('\n', 'n'), ('\x0b', 'v'),
    ('\x0c', 'f'), ('\r', 'r'), ('\x1b', 'e'), ('"', '"'), ('\\', '\\'), ('\u0085', 'N'),
    ('\u2028', 'L'), ('\u2029', 'P')].lookup c

/-- A code point in a number of hexadecimal digits. -/
def codeDigits (width code : Nat) : List Char :=
  let digits := (Nat.toDigits 16 code).map Char.toUpper
  List.replicate (width - digits.length) '0' ++ digits

/-- A character between double quotes. -/
def escaped (c : Char) : List Char :=
  match escapeLetter? c with
  | some letter => ['\\', letter]
  | none =>
    if isPrintable c then [c]
    else if c.toNat ≤ 0xFF then '\\' :: 'x' :: codeDigits 2 c.toNat
    else if c.toNat ≤ 0xFFFF then '\\' :: 'u' :: codeDigits 4 c.toNat
    else '\\' :: 'U' :: codeDigits 8 c.toNat

/-- Characters over lines: each line behind a line break is indented.  `afterBreak` tells that one
has just been written. -/
def indented (indent : Nat) (write : Char → List Char) (afterBreak : Bool) : List Char → List Char
  | [] => []
  | c :: rest =>
    if isBreak c then c :: indented indent write true rest
    else
      (if afterBreak then List.replicate indent ' ' else []) ++ write c ++
        indented indent write false rest

/-- The signs behind the mark of a block: that its first line starts with a blank, and that it ends
without a line break or with several. -/
def blockSigns (chars : List Char) : List Char :=
  let indent := if chars.head?.any (fun c => c = ' ' || isBreak c) then ['2'] else []
  let ending := match chars.reverse with
    | last :: before =>
      if !isBreak last then ['-'] else if before.head?.all isBreak then ['+'] else []
    | [] => ['-']
  indent ++ ending

/-- The written form of a text whose further lines are indented by `indent`. -/
def textForm (indent : Nat) (text : String) : String :=
  let chars := text.toList
  String.ofList <| match formOf text with
    | .plain => chars
    | .doubleQuoted => '"' :: chars.flatMap escaped ++ ['"']
    | .singleQuoted =>
      let doubled (c : Char) := if c = '\'' then [c, c] else [c]
      let ending := if chars.getLast?.any isBreak then List.replicate indent ' ' else []
      '\'' :: indented indent doubled false chars ++ ending ++ ['\'']
    | .literal =>
      '|' :: blockSigns chars ++ '\n' :: indented indent (fun c => [c]) true chars

/-- A member of a mapping that stands at a level of nesting, with its written value. -/
def memberLine (level : Nat) (name value : String) : String :=
  let line := "".pushn ' ' (2 * level) ++ name ++ ": " ++ value
  if line.toList.getLast?.any isBreak then line else line ++ "\n"

/-- The line in front of the members of a mapping that is a member itself. -/
def mappingLine (level : Nat) (name : String) : String :=
  "".pushn ' ' (2 * level) ++ name ++ ":\n"

/-- A member whose value is a text. -/
def textLine (level : Nat) (name text : String) : String :=
  memberLine level name (textForm (2 * level + 2) text)

example : textForm 4 "a b" = "a b" := by decide +kernel
example : textForm 4 "it's: " = "'it''s: '" := by decide +kernel
example : textForm 4 "a\nb" = "|-\n    a\n    b" := by decide +kernel

end GateBench.Yaml
