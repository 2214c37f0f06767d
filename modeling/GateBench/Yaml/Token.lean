import GateBench.Yaml.Scalar

/-!
The tokens of a text in the YAML format.  Indentation and keys turn into tokens here: an indented
collection is opened and closed like one in brackets, and every key has a mark before it.  Whether a
word is a key is known only at the colon behind it, so the marks of such keys are put in later, at
the place where the word began.
-/

namespace GateBench.Yaml

/-- A token.  A tag has a handle, which an empty one has not, and what follows it. -/
inductive Token where
  | version (major minor : Nat)
  | tagHandle (handle expansion : String)
  | documentStart
  | documentEnd
  | blockSequence
  | blockMapping
  | blockEnd
  | flowSequence
  | flowSequenceEnd
  | flowMapping
  | flowMappingEnd
  | entry
  | separator
  | key
  | value
  | alias (name : String)
  | anchor (name : String)
  | tag (handle suffix : String)
  | scalar (text : String) (style : ScalarStyle)
deriving DecidableEq, Repr

/-! ### Anchors, tags and directives -/

/-- Take the name of an anchor or of an alias behind its mark. -/
def takeAnchorName? (chars : List Char) : Option (String × List Char) :=
  let name := chars.takeWhile isNameChar
  let rest := chars.drop name.length
  let marks := ['?', ':', ',', ']', '\x7d', '%', '@', '\x60']
  if name ≠ [] ∧ (endsWord rest ∨ rest.head?.any marks.contains) then
    some (String.ofList name, rest)
  else none

/-- Whether a character may stand in a tag; some may only between angle brackets. -/
def isTagChar (isBracketed : Bool) (c : Char) : Bool :=
  isNameChar c || ";/?:@&=+$.%!~*'()".contains c || (isBracketed && ",[]".contains c)

/-- The bytes that the characters of a tag stand for: two digits behind a percent sign are a
byte. -/
def tagBytes? : List Char → Option (List UInt8)
  | [] => some []
  | '%' :: high :: low :: rest => do
    let byte ← Number.ofDigits? 16 [high, low]
    return byte.toUInt8 :: (← tagBytes? rest)
  | '%' :: _ => none
  | c :: rest => return c.toNat.toUInt8 :: (← tagBytes? rest)

/-- Take the longest run of characters of a tag. -/
def takeTagText? (isBracketed : Bool) (chars : List Char) : Option (String × List Char) := do
  let spelled := chars.takeWhile (isTagChar isBracketed)
  let text ← String.fromUTF8? ⟨(← tagBytes? spelled).toArray⟩
  return (text, chars.drop spelled.length)

/-- Take a run of characters of a tag that is not empty. -/
def takeSomeTagText? (isBracketed : Bool) (chars : List Char) : Option (String × List Char) :=
  (takeTagText? isBracketed chars).filter (·.1 ≠ "")

/-- Take the handle and the suffix of a tag behind its exclamation mark. -/
def takeTagParts? (chars : List Char) : Option (String × String × List Char) := do
  if chars.head? = some '<' then
    let (text, rest) ← takeSomeTagText? true (chars.drop 1)
    if rest.head? = some '>' then return ("", text, rest.drop 1) else none
  else
    let name := chars.takeWhile isNameChar
    let rest := chars.drop name.length
    if rest.head? = some '!' then
      let (suffix, rest) ← takeSomeTagText? false (rest.drop 1)
      return (String.ofList ('!' :: name ++ ['!']), suffix, rest)
    else
      let (suffix, rest) ← takeTagText? false chars
      return if suffix = "" then ("", "!", rest) else ("!", suffix, rest)

/-- Take a tag behind its exclamation mark. -/
def takeTag? (inFlow : Bool) (chars : List Char) : Option (Token × List Char) := do
  let (handle, suffix, rest) ← takeTagParts? chars
  if endsWord rest ∨ (inFlow ∧ rest.head? = some ',') then return (.tag handle suffix, rest)
  else none

/-- Take a number of at most nine digits. -/
def takeVersionPart? (chars : List Char) : Option (Nat × List Char) := do
  let digits := chars.takeWhile Char.isDigit
  let value ← Number.ofDigits? 10 digits
  if digits.length ≤ 9 then return (value, chars.drop digits.length) else none

/-- Take the content of a directive that tells the version of the format. -/
def takeVersion? (chars : List Char) : Option (Token × List Char) := do
  let (major, rest) ← takeVersionPart? (chars.dropWhile isSpaceOrTab)
  if rest.head? ≠ some '.' then none
  let (minor, rest) ← takeVersionPart? (rest.drop 1)
  return (.version major minor, rest)

/-- Take the content of a directive that tells what the handle of a tag stands for. -/
def takeTagHandle? (chars : List Char) : Option (Token × List Char) := do
  let chars := chars.dropWhile isSpaceOrTab
  if chars.head? ≠ some '!' then none
  let name := (chars.drop 1).takeWhile isNameChar
  let rest := chars.drop (name.length + 1)
  let closing := if rest.head? = some '!' then ['!'] else []
  let rest := rest.drop closing.length
  if (name ≠ [] ∧ closing = []) ∨ !rest.head?.any isSpaceOrTab then none
  let (expansion, rest) ← takeSomeTagText? true (rest.dropWhile isSpaceOrTab)
  if endsWord rest then return (.tagHandle (String.ofList ('!' :: name ++ closing)) expansion, rest)
  else none

/-- Take a directive behind its percent sign, and the end of its line. -/
def takeDirective? (chars : List Char) : Option (Token × List Char) := do
  let name := chars.takeWhile isNameChar
  let rest := chars.drop name.length
  if !endsWord rest then none
  let (token, rest) ← match String.ofList name with
    | "YAML" => takeVersion? rest
    | "TAG" => takeTagHandle? rest
    | _ => none
  return (token, ← endLine? rest)

/-! ### Scanning -/

/-- A place where a key may have begun: the number of tokens before it, and whether only a key can
stand there. -/
structure KeyPlace where
  tokens : Nat
  cursor : Cursor
  isRequired : Bool

/-- What is known in the middle of a text: the columns of the open block collections, innermost
first; whether a key may begin here; and for the innermost level and every level around the open
flow collections the place where its next key may have begun. -/
structure Scanner where
  cursor : Cursor
  tokens : Array Token := #[]
  columns : List Nat := []
  mayStartKey : Bool := true
  key : Option KeyPlace := none
  outerKeys : List (Option KeyPlace) := []

namespace Scanner

/-- Whether a flow collection is open. -/
def inFlow (scanner : Scanner) : Bool :=
  !scanner.outerKeys.isEmpty

/-- The least column at which a line goes on with a scalar of the innermost block collection. -/
def nextColumn (scanner : Scanner) : Nat :=
  scanner.columns.head?.elim 0 (· + 1)

/-- Add a token and go on behind it. -/
def push (scanner : Scanner) (token : Token) (rest : List Char) : Scanner :=
  { scanner with tokens := scanner.tokens.push token, cursor := scanner.cursor.to rest }

/-- Open a block collection at a column, unless one is open there: its token stands behind the first
`position` tokens. -/
def openBlock (scanner : Scanner) (token : Token) (column position : Nat) : Scanner :=
  if scanner.inFlow || scanner.columns.head?.any (column ≤ ·) then scanner
  else
    { scanner with
      columns := column :: scanner.columns
      tokens := scanner.tokens.insertIdxIfInBounds position token }

/-- Close the block collections whose columns satisfy a condition, innermost first. -/
def closeBlocks (scanner : Scanner) (closes : Nat → Bool) : Scanner :=
  if scanner.inFlow then scanner
  else
    let closed := scanner.columns.takeWhile closes
    { scanner with
      columns := scanner.columns.drop closed.length
      tokens := scanner.tokens ++ Array.replicate closed.length Token.blockEnd }

/-- Give up the place of a key on this level.  Where only a key can stand, that is an error. -/
def dropKey (scanner : Scanner) : Option Scanner :=
  if scanner.key.any (·.isRequired) then none else some { scanner with key := none }

/-- Note this place as one where a key may begin, if it is. -/
def saveKey (scanner : Scanner) : Option Scanner :=
  if scanner.mayStartKey then do
    let isRequired := !scanner.inFlow && scanner.columns.head? = some scanner.cursor.column
    let scanner ← scanner.dropKey
    return { scanner with key := some ⟨scanner.tokens.size, scanner.cursor, isRequired⟩ }
  else some scanner

/-- The place of a key, unless the key has grown too long: it lies on one line and takes up at most
1024 characters. -/
def checkKey (cursor : Cursor) : Option KeyPlace → Option (Option KeyPlace)
  | none => some none
  | some place =>
    if place.cursor.line < cursor.line || place.cursor.index + 1024 < cursor.index then
      if place.isRequired then none else some none
    else some (some place)

/-- Pass over blanks, line breaks and comments.  A tab is a blank only where no key may begin; a
line break lets a key begin outside flow collections. -/
def skipFrom (inFlow mayStartKey inComment : Bool) : List Char → Bool × List Char
  | [] => (mayStartKey, [])
  | c :: rest =>
    if isBreak c then skipFrom inFlow (mayStartKey || !inFlow) false rest
    else if inComment || c = ' ' || (c = '\t' && (inFlow || !mayStartKey)) then
      skipFrom inFlow mayStartKey inComment rest
    else if c = '#' then skipFrom inFlow mayStartKey true rest
    else (mayStartKey, c :: rest)

/-- Go to the start of the next token. -/
def settle (scanner : Scanner) : Option Scanner := do
  let (mayStartKey, rest) :=
    skipFrom scanner.inFlow scanner.mayStartKey false scanner.cursor.rest
  let cursor := scanner.cursor.to rest
  let key ← checkKey cursor scanner.key
  let outerKeys ← scanner.outerKeys.mapM (checkKey cursor)
  let scanner := { scanner with cursor, mayStartKey, key, outerKeys }
  return scanner.closeBlocks (cursor.column < ·)

/-- Take a directive or the mark of a document, in front of which every block collection ends. -/
def takeBoundary (scanner : Scanner) (token : Token) (rest : List Char) : Option Scanner := do
  let scanner ← (scanner.closeBlocks fun _ => true).dropKey
  return { scanner with mayStartKey := false }.push token rest

/-- Take an opening bracket. -/
def openFlow (scanner : Scanner) (token : Token) (rest : List Char) : Option Scanner := do
  let scanner ← scanner.saveKey
  let outerKeys := scanner.key :: scanner.outerKeys
  return { scanner with key := none, outerKeys, mayStartKey := true }.push token rest

/-- Take a closing bracket. -/
def closeFlow (scanner : Scanner) (token : Token) (rest : List Char) : Option Scanner := do
  let scanner ← scanner.dropKey
  let scanner := match scanner.outerKeys with
    | key :: outerKeys => { scanner with key, outerKeys }
    | [] => scanner
  return { scanner with mayStartKey := false }.push token rest

/-- Take a mark behind which a key may begin: a comma, the dash of an entry or the mark of a key.
Outside flow collections a dash and a mark of a key open a collection at their column if need be. -/
def takeMark (scanner : Scanner) (token : Token) (collection : Option Token) (mayStartKey : Bool)
    (rest : List Char) : Option Scanner := do
  if collection.isSome && !scanner.inFlow && !scanner.mayStartKey then none
  let scanner := match collection with
    | some collection => scanner.openBlock collection scanner.cursor.column scanner.tokens.size
    | none => scanner
  let scanner ← scanner.dropKey
  return { scanner with mayStartKey }.push token rest

/-- Take the colon in front of a value.  If a key may have begun on this line, it did. -/
def takeColon (scanner : Scanner) (rest : List Char) : Option Scanner :=
  match scanner.key with
  | some place =>
    let tokens := scanner.tokens.insertIdxIfInBounds place.tokens .key
    let scanner := { scanner with tokens, key := none, mayStartKey := false }
    some ((scanner.openBlock .blockMapping place.cursor.column place.tokens).push .value rest)
  | none => scanner.takeMark .value (some .blockMapping) (!scanner.inFlow) rest

/-- Take something that may be a key or stand in front of one. -/
def takeContent (scanner : Scanner) (taken : Option (Token × List Char)) : Option Scanner := do
  let scanner ← scanner.saveKey
  let (token, rest) ← taken
  return { scanner with mayStartKey := false }.push token rest

/-- Take a plain scalar. -/
def takePlain (scanner : Scanner) : Option Scanner := do
  let cursor := scanner.cursor
  let scalar ← takePlain? scanner.inFlow scanner.nextColumn cursor.column cursor.rest
  let scanner ← scanner.takeContent (some (.scalar scalar.text .plain, scalar.rest))
  return { scanner with mayStartKey := scalar.endsLine }

/-- Take a block of lines. -/
def takeBlock (scanner : Scanner) (style : ScalarStyle) (rest : List Char) : Option Scanner := do
  let scanner ← scanner.dropKey
  let (text, rest) ← takeBlock? (style = .folded) scanner.columns.head? rest
  return { scanner with mayStartKey := true }.push (.scalar text style) rest

/-- Take the token that starts with the character `c`. -/
def take (scanner : Scanner) (c : Char) (rest : List Char) : Option Scanner :=
  let inFlow := scanner.inFlow
  let isMark := inFlow || endsWord rest
  let quoted (style : ScalarStyle) :=
    (takeQuoted? (style = .doubleQuoted) rest).map fun (text, rest) =>
      (Token.scalar text style, rest)
  if scanner.cursor.column = 0 && c = '%' then do
    let (token, rest) ← takeDirective? rest
    scanner.takeBoundary token rest
  else if scanner.cursor.column = 0 && isDocumentMark (c :: rest) then
    scanner.takeBoundary (if c = '-' then .documentStart else .documentEnd) (rest.drop 2)
  else
    match c with
    | '[' => scanner.openFlow .flowSequence rest
    | '\x7b' => scanner.openFlow .flowMapping rest
    | ']' => scanner.closeFlow .flowSequenceEnd rest
    | '\x7d' => scanner.closeFlow .flowMappingEnd rest
    | ',' => scanner.takeMark .separator none true rest
    | '-' =>
      if endsWord rest then scanner.takeMark .entry (some .blockSequence) true rest
      else scanner.takePlain
    | '?' =>
      if isMark then scanner.takeMark .key (some .blockMapping) (!inFlow) rest
      else scanner.takePlain
    | ':' => if isMark then scanner.takeColon rest else scanner.takePlain
    | '*' =>
      scanner.takeContent ((takeAnchorName? rest).map fun (name, rest) => (.alias name, rest))
    | '&' =>
      scanner.takeContent ((takeAnchorName? rest).map fun (name, rest) => (.anchor name, rest))
    | '!' => scanner.takeContent (takeTag? inFlow rest)
    | '|' => if inFlow then none else scanner.takeBlock .literal rest
    | '>' => if inFlow then none else scanner.takeBlock .folded rest
    | '\'' => scanner.takeContent (quoted .singleQuoted)
    | '"' => scanner.takeContent (quoted .doubleQuoted)
    | '%' | '@' | '\x60' | '\t' => none
    | _ => scanner.takePlain

/-- Take the tokens that are left.  Every token takes characters away. -/
def takeAll (scanner : Scanner) : Option (List Token) := do
  let settled ← scanner.settle
  match settled.cursor.rest with
  | [] => return (← (settled.closeBlocks fun _ => true).dropKey).tokens.toList
  | c :: rest =>
    let next ← settled.take c rest
    if next.cursor.rest.length < scanner.cursor.rest.length then takeAll next else none
termination_by scanner.cursor.rest.length

end Scanner

/-- The tokens of a text; none if it breaks the rules of the format.  A mark of the byte order in
front of the text is no part of it. -/
def tokens? (text : String) : Option (List Token) :=
  let chars := text.toList
  let chars := if chars.head? = some '\ufeff' then chars.drop 1 else chars
  if chars.all isAllowed then Scanner.takeAll { cursor := ⟨unifyBreaks chars, 0, 0, 0⟩ } else none

end GateBench.Yaml
