import GateBench.Json.Basic
import GateBench.Number.Digits

/-!
Reading JSON.  The grammar is strict: no comments, no trailing commas, no leading zeros, no raw
control characters in strings, and nothing but blanks behind the value.
-/

namespace GateBench.Json

/-- The blanks of JSON. -/
def isSpace (c : Char) : Bool :=
  c = ' ' || c = '\n' || c = '\t' || c = '\r'

/-- What follows a blank run. -/
def skipSpaces (chars : List Char) : List Char :=
  chars.dropWhile isSpace

theorem length_skipSpaces_le (chars : List Char) : (skipSpaces chars).length ≤ chars.length :=
  (List.dropWhile_suffix _).length_le

/-- Something read, and the characters behind it: fewer than `bound`. -/
structure Taken (α : Type) (bound : Nat) where
  value : α
  rest : List Char
  shorter : rest.length < bound

/-- The code unit that four hexadecimal digits spell. -/
def codeUnit? (a b c d : Char) : Option Nat :=
  Number.ofDigits? 16 [a, b, c, d]

/-- Whether a code unit is the first half of a surrogate pair. -/
def isHighSurrogate (unit : Nat) : Bool :=
  0xD800 ≤ unit && unit < 0xDC00

/-- Whether a code unit is the second half of a surrogate pair. -/
def isLowSurrogate (unit : Nat) : Bool :=
  0xDC00 ≤ unit && unit < 0xE000

/-- The character of a surrogate pair. -/
def pairChar (high low : Nat) : Char :=
  Char.ofNat (0x10000 + (high - 0xD800) * 0x400 + (low - 0xDC00))

/-- The character of an escape of one letter. -/
def shortEscape? : Char → Option Char
  | '"' => some '"'
  | '\\' => some '\\'
  | '/' => some '/'
  | 'b' => some '\x08'
  | 'f' => some '\x0c'
  | 'n' => some '\n'
  | 'r' => some '\r'
  | 't' => some '\t'
  | _ => none

/-- The low half of a surrogate pair that is escaped at the front, and the characters behind it. -/
def takeLowHalf? : List Char → Option (Nat × List Char)
  | '\\' :: 'u' :: a :: b :: c :: d :: rest => do
    let unit ← codeUnit? a b c d
    if isLowSurrogate unit then return (unit, rest) else none
  | _ => none

theorem length_of_takeLowHalf? {chars rest : List Char} {unit : Nat}
    (h : takeLowHalf? chars = some (unit, rest)) : rest.length < chars.length := by
  unfold takeLowHalf? at h
  split at h
  · simp only [Option.bind_eq_bind, Option.bind_eq_some_iff] at h
    obtain ⟨_, _, h⟩ := h
    split at h
    · simp only [Option.pure_def, Option.some.injEq, Prod.mk.injEq] at h
      rw [← h.2]
      simp
      omega
    · simp at h
  · simp at h

/-- Take an escape behind its backslash.  It stands for a character, or for none if it is half of a
surrogate pair whose other half does not follow. -/
def takeEscape : (chars : List Char) → Option (Taken (Option Char) chars.length)
  | 'u' :: a :: b :: c :: d :: rest => do
    let unit ← codeUnit? a b c d
    if isHighSurrogate unit then
      match h : takeLowHalf? rest with
      | some (low, after) => return ⟨some (pairChar unit low), after, by
          have := length_of_takeLowHalf? h; simp; omega⟩
      | none => return ⟨none, rest, by simp; omega⟩
    else
      let c := if isLowSurrogate unit then none else some (Char.ofNat unit)
      return ⟨c, rest, by simp; omega⟩
  | letter :: rest => do
    let c ← shortEscape? letter
    return ⟨some c, rest, by simp⟩
  | [] => none

/-- Append a character to a text, if both are proper. -/
def pushChar (text : Option String) (c : Option Char) : Option String := do
  return (← text).push (← c)

/-- Take the rest of a string up to its closing quote.  `text` is what was read so far, `none` once
an escape stood for no character. -/
def takeStringRest {bound : Nat} (text : Option String) (chars : List Char)
    (within : chars.length ≤ bound) : Option (Taken (Option String) bound) :=
  match chars with
  | [] => none
  | c :: rest =>
    if c = '"' then some ⟨text, rest, by simp at within; omega⟩
    else if c = '\\' then
      match takeEscape rest with
      | none => none
      | some escaped => takeStringRest (pushChar text escaped.value) escaped.rest (by
          have := escaped.shorter; simp at within; omega)
    else if c.toNat < 0x20 then none
    else takeStringRest (pushChar text (some c)) rest (by simp at within; omega)
termination_by chars.length
decreasing_by
  · have := escaped.shorter; simp; omega
  · simp

/-- Take a string behind its opening quote. -/
def takeString (chars : List Char) : Option (Taken (Option String) chars.length) :=
  takeStringRest (some "") chars (Nat.le_refl _)

/-- The longest run of digits at the front. -/
def digitRun (chars : List Char) : List Char :=
  chars.takeWhile Char.isDigit

/-- The digits in front of a number's point: a zero alone, or any that do not start with one. -/
def takeWhole? (chars : List Char) : Option (List Char) :=
  match digitRun chars with
  | [] => none
  | '0' :: _ :: _ => none
  | digits => some digits

/-- A point and at least one digit, if a point is there. -/
def takeFraction? : List Char → Option (List Char)
  | '.' :: rest =>
    match digitRun rest with
    | [] => none
    | digits => some ('.' :: digits)
  | _ => some []

/-- A letter `e`, a sign and at least one digit, if the letter is there. -/
def takeExponent? : List Char → Option (List Char)
  | letter :: rest =>
    if letter = 'e' || letter = 'E' then
      let sign := match rest with
        | '+' :: _ => ['+']
        | '-' :: _ => ['-']
        | _ => []
      match digitRun (rest.drop sign.length) with
      | [] => none
      | digits => some (letter :: (sign ++ digits))
    else some []
  | [] => some []

/-- The characters of the number at the front. -/
def takeNumber? (chars : List Char) : Option (List Char) := do
  let sign := if chars.head? = some '-' then ['-'] else []
  let unsigned := chars.drop sign.length
  let whole ← takeWhole? unsigned
  let afterWhole := unsigned.drop whole.length
  let fraction ← takeFraction? afterWhole
  let exponent ← takeExponent? (afterWhole.drop fraction.length)
  return sign ++ whole ++ fraction ++ exponent

/-- The number that a text of the grammar of numbers stands for. -/
def numeralOf (text : List Char) : Numeral :=
  let value := text.foldl (fun n c => 10 * n + (c.toNat - '0'.toNat)) 0
  if text.all Char.isDigit && value < UInt64.size then .natural value
  else .other (String.ofList text)

/-- Take a given word. -/
def takeWord (word : List Char) (value : Json) (chars : List Char) :
    Option (Taken Json chars.length) :=
  if h : word ≠ [] ∧ word.isPrefixOf chars = true then
    some ⟨value, chars.drop word.length, by
      have := (List.isPrefixOf_iff_prefix.mp h.2).length_le
      have := List.length_pos_iff.mpr h.1
      simp; omega⟩
  else none

/-- Take a number. -/
def takeNumeral (chars : List Char) : Option (Taken Json chars.length) :=
  match takeNumber? chars with
  | none => none
  | some text =>
    if h : text ≠ [] ∧ chars ≠ [] then
      some ⟨.number (numeralOf text), chars.drop text.length, by
        have := List.length_pos_iff.mpr h.1
        have := List.length_pos_iff.mpr h.2
        simp; omega⟩
    else none

mutual

/-- Take a value at the front, where no blank stands. -/
def takeValue (chars : List Char) : Option (Taken Json chars.length) :=
  match chars with
  | '"' :: rest => do
    let taken ← takeString rest
    return ⟨.string taken.value, taken.rest, by have := taken.shorter; simp; omega⟩
  | '[' :: rest => do
    let taken ← takeFirstItem rest
    return ⟨.array taken.value, taken.rest, by have := taken.shorter; simp; omega⟩
  | '\x7b' :: rest => do
    let taken ← takeFirstMember rest
    return ⟨.object taken.value, taken.rest, by have := taken.shorter; simp; omega⟩
  | 'n' :: rest => takeWord "null".toList .null ('n' :: rest)
  | 't' :: rest => takeWord "true".toList (.bool true) ('t' :: rest)
  | 'f' :: rest => takeWord "false".toList (.bool false) ('f' :: rest)
  | chars => takeNumeral chars
termination_by (chars.length, 0)

/-- Take the items of an array behind its opening bracket. -/
def takeFirstItem (chars : List Char) : Option (Taken (List Json) chars.length) :=
  match hc : skipSpaces chars with
  | ']' :: rest => some ⟨[], rest, by
      have := length_skipSpaces_le chars; rw [hc] at this; simp at this; omega⟩
  | _ => takeItems chars
termination_by (chars.length, 3)

/-- Take an item and those behind it, up to the closing bracket. -/
def takeItems (chars : List Char) : Option (Taken (List Json) chars.length) := do
  let item ← takeValue (skipSpaces chars)
  match hc : skipSpaces item.rest with
  | ']' :: rest => return ⟨[item.value], rest, by
      have := item.shorter
      have := length_skipSpaces_le chars
      have := length_skipSpaces_le item.rest; rw [hc] at this
      simp at this; omega⟩
  | ',' :: rest =>
    let items ← takeItems rest
    return ⟨item.value :: items.value, items.rest, by
      have := item.shorter
      have := items.shorter
      have := length_skipSpaces_le chars
      have := length_skipSpaces_le item.rest; rw [hc] at this
      simp at this; omega⟩
  | _ => none
termination_by (chars.length, 2)
decreasing_by
  · have := length_skipSpaces_le chars
    rcases Nat.lt_or_eq_of_le this with h | h
    · exact Prod.Lex.left _ _ h
    · rw [h]; exact Prod.Lex.right _ (by omega)
  · apply Prod.Lex.left
    have := item.shorter
    have := length_skipSpaces_le chars
    have := length_skipSpaces_le item.rest; rw [hc] at this
    simp at this; omega

/-- Take the members of an object behind its opening brace. -/
def takeFirstMember (chars : List Char) :
    Option (Taken (List (Option String × Json)) chars.length) :=
  match hc : skipSpaces chars with
  | '\x7d' :: rest => some ⟨[], rest, by
      have := length_skipSpaces_le chars; rw [hc] at this; simp at this; omega⟩
  | _ => takeMembers chars
termination_by (chars.length, 3)

/-- Take a member and those behind it, up to the closing brace. -/
def takeMembers (chars : List Char) :
    Option (Taken (List (Option String × Json)) chars.length) :=
  match hc : skipSpaces chars with
  | '"' :: quoted => do
    let name ← takeString quoted
    match hn : skipSpaces name.rest with
    | ':' :: afterColon =>
      let value ← takeValue (skipSpaces afterColon)
      match hv : skipSpaces value.rest with
      | '\x7d' :: rest => return ⟨[(name.value, value.value)], rest, by
          have := name.shorter
          have := value.shorter
          have := length_skipSpaces_le chars; rw [hc] at this
          have := length_skipSpaces_le name.rest; rw [hn] at this
          have := length_skipSpaces_le afterColon
          have := length_skipSpaces_le value.rest; rw [hv] at this
          simp at *; omega⟩
      | ',' :: rest =>
        let members ← takeMembers rest
        return ⟨(name.value, value.value) :: members.value, members.rest, by
          have := name.shorter
          have := value.shorter
          have := members.shorter
          have := length_skipSpaces_le chars; rw [hc] at this
          have := length_skipSpaces_le name.rest; rw [hn] at this
          have := length_skipSpaces_le afterColon
          have := length_skipSpaces_le value.rest; rw [hv] at this
          simp at *; omega⟩
      | _ => none
    | _ => none
  | _ => none
termination_by (chars.length, 2)
decreasing_by
  · apply Prod.Lex.left
    have := name.shorter
    have := length_skipSpaces_le chars; rw [hc] at this
    have := length_skipSpaces_le name.rest; rw [hn] at this
    have := length_skipSpaces_le afterColon
    simp at *; omega
  · apply Prod.Lex.left
    have := name.shorter
    have := value.shorter
    have := length_skipSpaces_le chars; rw [hc] at this
    have := length_skipSpaces_le name.rest; rw [hn] at this
    have := length_skipSpaces_le afterColon
    have := length_skipSpaces_le value.rest; rw [hv] at this
    simp at *; omega

end

/-- Read a text that holds one value, with blanks around it. -/
def read? (text : String) : Option Json := do
  let taken ← takeValue (skipSpaces text.toList)
  if skipSpaces taken.rest = [] then return taken.value else none

end GateBench.Json
