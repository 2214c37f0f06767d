import GateBench.Syntax.Token

/-!
Splitting a text into lexemes.  At every position the longest lexeme is taken: a blank run, a
comment to the end of its line, a token, or else one invalid character.  A whole number of
`2 ^ 64` or more is invalid as a whole.  Blank runs and comments are dropped from the result; every
other lexeme keeps its span in bytes and the line it starts on.
-/

namespace GateBench.Syntax

/-- The blank characters of the language. -/
def isSpace (c : Char) : Bool :=
  c = ' ' || c = '\t' || c = '\r' || c = '\n'

/-- The ASCII digits. -/
def isDigit (c : Char) : Bool :=
  '0' ≤ c && c ≤ '9'

/-- The characters an identifier may start with. -/
def isNameStart (c : Char) : Bool :=
  ('a' ≤ c && c ≤ 'z') || ('A' ≤ c && c ≤ 'Z') || c = '_'

/-- The characters an identifier may go on with. -/
def isNameChar (c : Char) : Bool :=
  isNameStart c || isDigit c

/-- The number that a run of digits spells. -/
def digitsValue (digits : List Char) : Nat :=
  digits.foldl (fun value c => 10 * value + (c.toNat - '0'.toNat)) 0

/-- What a lexeme turned out to be. -/
inductive Lexeme where
  | blank
  | comment
  | token (token : Token)
  | invalid
deriving DecidableEq

/-- The longest exponent at the front of `chars`: a letter `e`, an optional sign, and at least one
digit.  Without a digit there is no exponent. -/
def exponentPart : List Char → List Char
  | [] => []
  | letter :: rest =>
    if letter = 'e' || letter = 'E' then
      let (sign, digits) := match rest with
        | '+' :: after => (['+'], after.takeWhile isDigit)
        | '-' :: after => (['-'], after.takeWhile isDigit)
        | _ => ([], rest.takeWhile isDigit)
      if digits = [] then [] else letter :: (sign ++ digits)
    else []

/-- The power of ten that an exponent states. -/
def exponentValue : List Char → Int
  | _ :: '-' :: digits => - (digitsValue digits : Int)
  | _ :: '+' :: digits => digitsValue digits
  | _ :: digits => digitsValue digits
  | [] => 0

/-- The longest number at the front of `chars`, which starts with a digit, and its characters. -/
def number (chars : List Char) : Lexeme × List Char :=
  let whole := chars.takeWhile isDigit
  let decimal (fraction written : List Char) (exponent : List Char) : Lexeme × List Char :=
    let value : Number.Decimal :=
      ⟨digitsValue (whole ++ fraction), exponentValue exponent - fraction.length⟩
    (.token (.decimal value.toFloat), whole ++ written ++ exponent)
  match chars.drop whole.length with
  | '.' :: rest =>
    let fraction := rest.takeWhile isDigit
    decimal fraction ('.' :: fraction) (exponentPart (rest.drop fraction.length))
  | rest =>
    match exponentPart rest with
    | [] =>
      let value := digitsValue whole
      (if value < UInt64.size then .token (.whole value) else .invalid, whole)
    | exponent => decimal [] [] exponent

/-- An identifier, unless the whole of it is a reserved word. -/
def word (name : String) : Token :=
  match Keyword.worded.find? (·.text = name) with
  | some keyword => .keyword keyword
  | none => .identifier name

/-- The longest lexeme at the front of a text that starts with `c`, and its characters. -/
def longest (c : Char) (rest : List Char) : Lexeme × List Char :=
  let chars := c :: rest
  let single : Lexeme × List Char :=
    match Mark.ofChar? c with
    | some mark => (.token (.mark mark), [c])
    | none => (.invalid, [c])
  if isSpace c then (.blank, chars.takeWhile isSpace)
  else if isDigit c then number chars
  else if isNameStart c then
    let name := chars.takeWhile isNameChar
    (.token (word (String.ofList name)), name)
  else if c = '/' && rest.head? = some '/' then (.comment, chars.takeWhile (· ≠ '\n'))
  else
    let entry := Keyword.entryMark.text.toList
    if entry.isPrefixOf chars then (.token (.keyword .entryMark), entry)
    else single

/-- A lexeme other than blanks and comments, where it stands: a token, or the characters that are
none.  `start` and `stop` count bytes from the start of the text, lines count from one. -/
structure Item where
  content : Except String Token
  start : Nat
  stop : Nat
  line : Nat

/-- The bytes that characters take up. -/
def byteSize (chars : List Char) : Nat :=
  chars.foldl (fun size c => size + c.utf8Size) 0

/-- Walk over `chars`, which stand at byte `start` on line `line`, adding what is found to
`found`. -/
def scanFrom (start line : Nat) (found : Array Item) : List Char → Array Item
  | [] => found
  | c :: rest =>
    let (lexeme, chars) := longest c rest
    let stop := start + byteSize chars
    let found := match lexeme with
      | .blank | .comment => found
      | .token token => found.push ⟨.ok token, start, stop, line⟩
      | .invalid => found.push ⟨.error (String.ofList chars), start, stop, line⟩
    scanFrom stop (line + chars.count '\n') found (rest.drop (chars.length - 1))
termination_by chars => chars.length
decreasing_by simp only [List.length_drop, List.length_cons]; omega

/-- The tokens and invalid lexemes of a text in order. -/
def tokenize (text : String) : List Item :=
  (scanFrom 0 1 #[] text.toList).toList

end GateBench.Syntax
