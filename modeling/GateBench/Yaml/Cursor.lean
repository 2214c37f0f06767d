/-!
A text in the YAML format and the places in it.  Every line break reads as a line feed, except that
the separators of lines and of paragraphs stay themselves.
-/

namespace GateBench.Yaml

/-- The characters that a text may hold. -/
def isAllowed (c : Char) : Bool :=
  c = '\t' || c = '\n' || c = '\r' || (' ' ≤ c && c ≤ '~') || c = '\u0085' ||
    ('\u00a0' ≤ c && c ≠ '\ufffe' && c ≠ '\uffff')

/-- Read every line break as one character. -/
def unifyBreaks : List Char → List Char
  | '\r' :: '\n' :: rest => '\n' :: unifyBreaks rest
  | c :: rest => (if c = '\r' || c = '\u0085' then '\n' else c) :: unifyBreaks rest
  | [] => []

/-- Whether a character ends a line. -/
def isBreak (c : Char) : Bool :=
  c = '\n' || c = '\u2028' || c = '\u2029'

/-- Whether a character is a blank within a line. -/
def isSpaceOrTab (c : Char) : Bool :=
  c = ' ' || c = '\t'

/-- Whether a word cannot go on with these characters: a blank, a line break or nothing. -/
def endsWord : List Char → Bool
  | [] => true
  | c :: _ => isSpaceOrTab c || isBreak c

/-- The brackets and the comma of flow collections. -/
def isFlowMark (c : Char) : Bool :=
  c = ',' || c = '[' || c = ']' || c = '\x7b' || c = '\x7d'

/-- The characters of names: of anchors, of directives, and in the handles of tags. -/
def isNameChar (c : Char) : Bool :=
  c.isAlphanum || c = '_' || c = '-'

/-- Whether the line at whose start these characters stand starts or ends a document. -/
def isDocumentMark : List Char → Bool
  | a :: b :: c :: rest => (a = '-' || a = '.') && b = a && c = a && endsWord rest
  | _ => false

/-- What is left from the next line break on. -/
def restOfLine (chars : List Char) : List Char :=
  chars.dropWhile (!isBreak ·)

/-- What follows the end of a line on which nothing is left but blanks and a comment. -/
def endLine? (chars : List Char) : Option (List Char) :=
  let rest := chars.dropWhile isSpaceOrTab
  let rest := if rest.head? = some '#' then restOfLine rest else rest
  if rest.head?.all isBreak then some (rest.drop 1) else none

/-- A place in a text: the characters from there on, the count of those before, and line and column
from zero. -/
structure Cursor where
  rest : List Char
  index : Nat := 0
  line : Nat := 0
  column : Nat := 0

/-- The place a number of characters further on. -/
def Cursor.advance (cursor : Cursor) : Nat → Cursor
  | 0 => cursor
  | count + 1 =>
    match cursor.rest with
    | [] => cursor
    | c :: rest =>
      let next : Cursor :=
        if isBreak c then ⟨rest, cursor.index + 1, cursor.line + 1, 0⟩
        else ⟨rest, cursor.index + 1, cursor.line, cursor.column + 1⟩
      next.advance count

/-- The place where only these characters are left, which end what is left here. -/
def Cursor.to (cursor : Cursor) (rest : List Char) : Cursor :=
  cursor.advance (cursor.rest.length - rest.length)

end GateBench.Yaml
