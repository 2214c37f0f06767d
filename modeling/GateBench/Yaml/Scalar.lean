import GateBench.Number.Digits
import GateBench.Yaml.Cursor

/-!
Scalars as they are spelled: plain, quoted, and as blocks of lines.  A plain or quoted scalar that
runs over lines is folded: the blanks around a line break go, a single break becomes a space, and of
several breaks the first goes.  The lines of a block are told by their indentation.
-/

namespace GateBench.Yaml

/-- How a scalar is spelled. -/
inductive ScalarStyle where
  | plain
  | singleQuoted
  | doubleQuoted
  | literal
  | folded
deriving DecidableEq, Repr

/-! ### Folding -/

/-- A piece of a scalar that may run over lines.  A joint is a line break that was escaped. -/
inductive Piece where
  | text (c : Char)
  | blank (c : Char)
  | lineEnd (c : Char)
  | joint
deriving DecidableEq, Repr

/-- Blanks and line breaks before the next character, all latest first. -/
inductive Gap where
  | inLine (blanks : List Char)
  | overLines (first : Option Char) (others : List Char)

/-- What a gap leaves behind, latest first. -/
def Gap.text : Gap → List Char
  | .inLine blanks => blanks
  | .overLines (some '\n') [] => [' ']
  | .overLines (some '\n') others => others
  | .overLines first others => others ++ first.toList

/-- A gap with a blank behind it. -/
def Gap.blank (c : Char) : Gap → Gap
  | .inLine blanks => .inLine (c :: blanks)
  | broken => broken

/-- A gap with a line break behind it. -/
def Gap.lineEnd (c : Char) : Gap → Gap
  | .inLine _ => .overLines (some c) []
  | .overLines first others => .overLines first (c :: others)

/-- Fold pieces onto `text`, which is latest first and ends in a gap. -/
def foldFrom (text : List Char) (gap : Gap) : List Piece → List Char × Gap
  | [] => (text, gap)
  | .text c :: rest => foldFrom (c :: (gap.text ++ text)) (.inLine []) rest
  | .blank c :: rest => foldFrom text (gap.blank c) rest
  | .lineEnd c :: rest => foldFrom text (gap.lineEnd c) rest
  | .joint :: rest => foldFrom (gap.text ++ text) (.overLines none []) rest

/-- The text of folded pieces without the gap at their end. -/
def foldInner (pieces : List Piece) : String :=
  String.ofList (foldFrom [] (.inLine []) pieces).1.reverse

/-- The text of folded pieces with the gap at their end. -/
def foldWhole (pieces : List Piece) : String :=
  let (text, gap) := foldFrom [] (.inLine []) pieces
  String.ofList (gap.text ++ text).reverse

example : foldWhole [.text 'a', .blank ' ', .lineEnd '\n', .blank ' ', .text 'b', .blank ' '] =
    "a b " := by decide
example : foldInner [.text 'a', .lineEnd '\n', .lineEnd '\n', .text 'b', .lineEnd '\n'] =
    "a\nb" := by decide

/-! ### Quoted scalars -/

/-- The character of an escape of one letter. -/
def letterEscape? : Char → Option Char
  | '0' => some '\x00'
  | 'a' => some '\x07'
  | 'b' => some '\x08'
  | 't' => some '\t'
  | '\t' => some '\t'
  | 'n' => some '\n'
  | 'v' => some '\x0b'
  | 'f' => some '\x0c'
  | 'r' => some '\r'
  | 'e' => some '\x1b'
  | ' ' => some ' '
  | '"' => some '"'
  | '/' => some '/'
  | '\\' => some '\\'
  | 'N' => some '\u0085'
  | '_' => some '\u00a0'
  | 'L' => some '\u2028'
  | 'P' => some '\u2029'
  | _ => none

/-- The character whose code point the first `width` of `chars` spell in hexadecimal digits. -/
def codedChar? (width : Nat) (chars : List Char) : Option Char := do
  let digits := chars.take width
  let code ← Number.ofDigits? 16 digits
  if digits.length = width ∧ code.isValidChar then return Char.ofNat code else none

/-- The character of the escape behind a backslash, and how many characters spell it. -/
def takeEscape? : List Char → Option (Char × Nat)
  | [] => none
  | letter :: rest =>
    let coded (width : Nat) := (codedChar? width rest).map (·, width + 1)
    match letter with
    | 'x' => coded 2
    | 'u' => coded 4
    | 'U' => coded 8
    | _ => (letterEscape? letter).map (·, 1)

/-- Take the pieces of a quoted scalar up to its closing quote and append them to `pieces`, which
are latest first.  `startsLine` tells that a line break has just been passed: a mark of a document
may not stand there. -/
def takeQuotedFrom (isDouble startsLine : Bool) (pieces : List Piece) (chars : List Char) :
    Option (List Piece × List Char) :=
  match chars with
  | [] => none
  | c :: rest =>
    if startsLine && isDocumentMark (c :: rest) then none
    else if isBreak c then takeQuotedFrom isDouble true (.lineEnd c :: pieces) rest
    else if isSpaceOrTab c then takeQuotedFrom isDouble false (.blank c :: pieces) rest
    else if isDouble then
      if c = '"' then some (pieces, rest)
      else if c = '\\' then
        if rest.head?.any isBreak then
          takeQuotedFrom isDouble true (.joint :: pieces) (rest.drop 1)
        else
          match takeEscape? rest with
          | none => none
          | some (escaped, width) =>
            takeQuotedFrom isDouble false (.text escaped :: pieces) (rest.drop width)
      else takeQuotedFrom isDouble false (.text c :: pieces) rest
    else if c = '\'' then
      if rest.head? = some '\'' then
        takeQuotedFrom isDouble false (.text c :: pieces) (rest.drop 1)
      else some (pieces, rest)
    else takeQuotedFrom isDouble false (.text c :: pieces) rest
termination_by chars.length
decreasing_by all_goals (simp_wf; try omega)

/-- Take a quoted scalar behind its opening quote. -/
def takeQuoted? (isDouble : Bool) (chars : List Char) : Option (String × List Char) :=
  (takeQuotedFrom isDouble false [] chars).map fun (pieces, rest) =>
    (foldWhole pieces.reverse, rest)

/-! ### Plain scalars -/

/-- Where in a plain scalar a character stands: in a word, behind blanks, or behind a line break. -/
inductive PlainPlace where
  | word
  | blanks
  | newLine
deriving DecidableEq, Repr

/-- A plain scalar, whether a line break stands between it and what follows, and what follows. -/
structure PlainScalar where
  text : String
  endsLine : Bool
  rest : List Char

/-- Take the rest of a plain scalar whose pieces so far are given, latest first.  Outside flow
collections it goes on over a line break only in lines indented by at least `indent`. -/
def takePlainFrom (inFlow : Bool) (indent column : Nat) (place : PlainPlace)
    (pieces : List Piece) (chars : List Char) : Option PlainScalar :=
  let ended : PlainScalar := ⟨foldInner pieces.reverse, place = .newLine, chars⟩
  match chars with
  | [] => some ended
  | c :: rest =>
    if isSpaceOrTab c then
      if c = '\t' && place = .newLine && column < indent then none
      else
        takePlainFrom inFlow indent (column + 1) (if place = .word then .blanks else place)
          (.blank c :: pieces) rest
    else if isBreak c then takePlainFrom inFlow indent 0 .newLine (.lineEnd c :: pieces) rest
    else if place ≠ .word &&
        ((!inFlow && column < indent) || (column = 0 && isDocumentMark (c :: rest)) || c = '#') then
      some ended
    else if inFlow && c = ':' &&
        rest.head?.any (fun next => isFlowMark next || next = '?') then none
    else if (c = ':' && endsWord rest) || (inFlow && isFlowMark c) then some ended
    else takePlainFrom inFlow indent (column + 1) .word (.text c :: pieces) rest

/-- Take a plain scalar that starts at a column. -/
def takePlain? (inFlow : Bool) (indent column : Nat) (chars : List Char) : Option PlainScalar :=
  takePlainFrom inFlow indent column .word [] chars

/-! ### Blocks of lines -/

/-- What becomes of the line breaks at the end of a block. -/
inductive Chomping where
  | strip
  | clip
  | keep
deriving DecidableEq, Repr

/-- The sign that tells how to end a block. -/
def takeChomping : List Char → Option Chomping × List Char
  | '-' :: rest => (some .strip, rest)
  | '+' :: rest => (some .keep, rest)
  | chars => (none, chars)

/-- The digit that tells how far a block is indented. -/
def takeWidth : List Char → Option Nat × List Char
  | [] => (none, [])
  | c :: rest =>
    match Number.digitValue? 10 c with
    | none => (none, c :: rest)
    | some width => (some width, rest)

/-- What stands behind the mark of a block: a sign, a digit or both, in either order, blanks and a
comment. -/
def takeBlockHeader? (chars : List Char) : Option (Chomping × Option Nat × List Char) := do
  let (before, chars) := takeChomping chars
  let (width, chars) := takeWidth chars
  let (behind, chars) :=
    if before = none && width ≠ none then takeChomping chars else (none, chars)
  let rest ← endLine? chars
  if width = some 0 then none
  else return ((before <|> behind).getD .clip, width, rest)

/-- The indentation of a block that does not tell it: that of the first line with text, but not less
than that of the lines without text before it.  A tab is no indentation. -/
def blockIndent? (widest : Nat) (chars : List Char) : Option Nat :=
  let spaces := chars.takeWhile (· = ' ')
  let widest := max widest spaces.length
  match _h : chars.drop spaces.length with
  | [] => some widest
  | c :: rest =>
    if c = '\t' then none
    else if isBreak c then blockIndent? widest rest
    else some widest
termination_by chars.length
decreasing_by
  have := congrArg List.length _h
  simp at this
  simp_wf
  omega

/-- A line of a block, empty if it holds no text, and the break behind it. -/
structure BlockLine where
  text : List Char
  lineEnd : Option Char

/-- Take the lines of a block that is indented by `indent`, and append them to `lines`, which are
latest first. -/
def takeBlockLines (indent : Nat) (lines : List BlockLine) (chars : List Char) :
    Option (List BlockLine × List Char) :=
  let spaces := (chars.take indent).takeWhile (· = ' ')
  match _h : chars.drop spaces.length with
  | [] => some (lines, [])
  | c :: rest =>
    if isBreak c then takeBlockLines indent (⟨[], some c⟩ :: lines) rest
    else if spaces.length < indent then
      if c = '\t' then none else some (lines, c :: rest)
    else
      let text := (c :: rest).takeWhile (!isBreak ·)
      match _ht : (c :: rest).drop text.length with
      | [] => some (⟨text, none⟩ :: lines, [])
      | ending :: after => takeBlockLines indent (⟨text, some ending⟩ :: lines) after
termination_by chars.length
decreasing_by
  · have := congrArg List.length _h
    simp at this
    simp_wf
    omega
  · have := congrArg List.length _h
    have := congrArg List.length _ht
    simp at *
    omega

/-- The text of the lines of a block so far, latest first; the break behind its last line with text
and those behind the empty lines after it, and whether that line starts with a blank. -/
structure BlockText where
  text : List Char := []
  lineEnd : Option Char := none
  emptyLines : List Char := []
  startsBlank : Bool := false

/-- The text with a further line.  In a folded block a line feed between two lines that do not start
with blanks is folded. -/
def BlockText.add (isFolded : Bool) (block : BlockText) (line : BlockLine) : BlockText :=
  match line.text with
  | [] => { block with emptyLines := line.lineEnd.toList ++ block.emptyLines }
  | c :: _ =>
    let startsBlank := isSpaceOrTab c
    let between :=
      if isFolded && block.lineEnd = some '\n' && !block.startsBlank && !startsBlank then
        if block.emptyLines = [] then [' '] else []
      else block.lineEnd.toList
    { text := line.text.reverse ++ block.emptyLines ++ between ++ block.text
      lineEnd := line.lineEnd
      startsBlank }

/-- The text of a block. -/
def joinBlock (isFolded : Bool) (chomping : Chomping) (lines : List BlockLine) : String :=
  let block := lines.foldl (BlockText.add isFolded) {}
  let ending := match chomping with
    | .strip => []
    | .clip => block.lineEnd.toList
    | .keep => block.emptyLines ++ block.lineEnd.toList
  String.ofList (ending ++ block.text).reverse

/-- Take a block behind its mark.  It is indented by the width it tells beyond `outer`, the column
of the collection it stands in, and by at least one more than that column. -/
def takeBlock? (isFolded : Bool) (outer : Option Nat) (chars : List Char) :
    Option (String × List Char) := do
  let (chomping, width, rest) ← takeBlockHeader? chars
  let indent ← match width with
    | some width => some (outer.getD 0 + width)
    | none => (blockIndent? 0 rest).map (max · (max 1 (outer.elim 0 (· + 1))))
  let (lines, rest) ← takeBlockLines indent [] rest
  return (joinBlock isFolded chomping lines.reverse, rest)

end GateBench.Yaml
