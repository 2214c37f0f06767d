import GateBench.Json.Printer
import GateBench.Json.Reader
import Mathlib.Data.List.Basic

/-!
A JSON value that is written and read again is the same value.
-/

namespace GateBench.Json

/-- `Yields taken value rest`: a reader took this value and left these characters. -/
def Yields {α : Type} {bound : Nat} (taken : Option (Taken α bound)) (value : α)
    (rest : List Char) : Prop :=
  ∃ shorter, taken = some ⟨value, rest, shorter⟩

/-! ### Strings -/

theorem quote_toList (text : String) :
    (quote text).toList = '"' :: (text.toList.flatMap fun c => (escape c).toList) ++ ['"'] := by
  have hfold : ∀ (chars : List Char) (written : String),
      (chars.foldl (fun written c => written ++ escape c) written).toList =
        written.toList ++ chars.flatMap fun c => (escape c).toList := by
    intro chars
    induction chars with
    | nil => simp
    | cons c others ih => simp [ih]
  simp [quote, String.foldl_eq_foldl_toList, hfold]

theorem codeUnit?_hexDigit {n : Nat} (hn : n < 32) :
    codeUnit? '0' '0' (hexDigit (n / 16)) (hexDigit (n % 16)) = some n := by
  have hall : ∀ n < 32, codeUnit? '0' '0' (hexDigit (n / 16)) (hexDigit (n % 16)) = some n := by
    decide
  exact hall n hn

theorem takeEscape_short {letter c : Char} {rest : List Char} (hu : letter ≠ 'u')
    (hshort : shortEscape? letter = some c) :
    Yields (takeEscape (letter :: rest)) (some c) rest := by
  refine ⟨by simp, ?_⟩
  simp [takeEscape, hu, hshort]

theorem takeEscape_unicode {hi lo : Char} {unit : Nat}
    (hunit : codeUnit? '0' '0' hi lo = some unit) (hunder : unit < 0xD800) (rest : List Char) :
    Yields (takeEscape ('u' :: '0' :: '0' :: hi :: lo :: rest)) (some (Char.ofNat unit)) rest := by
  have hhigh : isHighSurrogate unit = false := by simp [isHighSurrogate]; omega
  have hlow : isLowSurrogate unit = false := by simp [isLowSurrogate]; omega
  refine ⟨by simp; omega, ?_⟩
  simp [takeEscape, hunit, hhigh, hlow]

theorem takeStringRest_backslash {bound : Nat} {text : String} {c : Char}
    (escaped : List Char) {rest left : List Char} {value : Option String}
    (hescaped : Yields (takeEscape (escaped ++ rest)) (some c) rest)
    (within : ('\\' :: (escaped ++ rest)).length ≤ bound)
    (hrest : ∀ within, Yields (@takeStringRest bound (some (text.push c)) rest within)
      value left) :
    Yields (takeStringRest (some text) ('\\' :: (escaped ++ rest)) within) value left := by
  obtain ⟨shorter, htaken⟩ := hescaped
  rw [takeStringRest]
  simp only [htaken]
  exact hrest _

/-- A character is written as an escape of one letter, by its number, or as it is. -/
theorem escape_cases (c : Char) :
    (∃ letter : Char, letter ≠ 'u' ∧ shortEscape? letter = some c ∧ ' ' ≤ letter ∧
      (escape c).toList = ['\\', letter]) ∨
    (c.toNat < 0x20 ∧ (escape c).toList =
      ['\\', 'u', '0', '0', hexDigit (c.toNat / 16), hexDigit (c.toNat % 16)]) ∨
    (c ≠ '"' ∧ c ≠ '\\' ∧ 0x20 ≤ c.toNat ∧ (escape c).toList = [c]) := by
  have hshort : ∀ c ∈ ['"', '\\', '\x08', '\x0c', '\n', '\r', '\t'],
      ∃ letter ∈ ['"', '\\', 'b', 'f', 'n', 'r', 't'], letter ≠ 'u' ∧
        shortEscape? letter = some c ∧ ' ' ≤ letter ∧ (escape c).toList = ['\\', letter] := by
    simp [escape, shortEscape?]
  by_cases hc : c ∈ ['"', '\\', '\x08', '\x0c', '\n', '\r', '\t']
  · obtain ⟨letter, -, hletter⟩ := hshort c hc
    exact .inl ⟨letter, hletter⟩
  · simp only [List.mem_cons, List.not_mem_nil, or_false, not_or] at hc
    obtain ⟨hquote, hbackslash, hothers⟩ := hc
    by_cases hcontrol : c.toNat < 0x20
    · exact .inr (.inl ⟨hcontrol, by simp [escape, hquote, hbackslash, hothers, hcontrol]⟩)
    · exact .inr (.inr ⟨hquote, hbackslash, Nat.le_of_not_lt hcontrol,
        by simp [escape, hquote, hbackslash, hothers, hcontrol]⟩)

/-- Every character is read back from its written form. -/
theorem takeStringRest_escape {bound : Nat} {text : String} {c : Char} {rest left : List Char}
    {value : Option String} (within : ((escape c).toList ++ rest).length ≤ bound)
    (hrest : ∀ within, Yields (@takeStringRest bound (some (text.push c)) rest within)
      value left) :
    Yields (takeStringRest (some text) ((escape c).toList ++ rest) within) value left := by
  rcases escape_cases c with ⟨letter, hu, hshort, -, hescape⟩ | ⟨hcontrol, hescape⟩ |
    ⟨hquote, hbackslash, hcontrol, hescape⟩
  · simp only [hescape] at within ⊢
    exact takeStringRest_backslash [letter] (takeEscape_short hu hshort) within hrest
  · simp only [hescape] at within ⊢
    have hescaped := takeEscape_unicode (codeUnit?_hexDigit hcontrol) (by omega) rest
    rw [Char.ofNat_toNat] at hescaped
    exact takeStringRest_backslash ['u', '0', '0', _, _] hescaped within hrest
  · simp only [hescape, List.cons_append, List.nil_append] at within ⊢
    rw [takeStringRest]
    rw [if_neg hquote, if_neg hbackslash, if_neg (Nat.not_lt.mpr hcontrol)]
    exact hrest _

/-- A string is read back from its written form. -/
theorem takeStringRest_quoted {bound : Nat} (text : String) (chars rest : List Char)
    (within : ((chars.flatMap fun c => (escape c).toList) ++ '"' :: rest).length ≤ bound) :
    Yields (takeStringRest (some text)
      ((chars.flatMap fun c => (escape c).toList) ++ '"' :: rest) within)
      (some (text ++ String.ofList chars)) rest := by
  induction chars generalizing text with
  | nil =>
      simp only [List.flatMap_nil, List.nil_append] at within ⊢
      rw [takeStringRest]
      exact ⟨by simp at within; omega, by simp⟩
  | cons c others ih =>
      simp only [List.flatMap_cons, List.append_assoc] at within ⊢
      refine takeStringRest_escape within fun within => ?_
      have hothers := ih (text.push c) within
      rwa [show text.push c ++ String.ofList others = text ++ String.ofList (c :: others) by
        simp [← String.toList_inj]] at hothers

/-- What may follow a value: nothing, or what ends or separates values. -/
def Ends (rest : List Char) : Prop :=
  ∀ c ∈ rest.head?, c = ',' ∨ c = ']' ∨ c = '\x7d'

/-! ### Numbers -/

theorem digitRun_append {digits rest : List Char} (hdigits : ∀ c ∈ digits, c.isDigit)
    (hrest : ∀ c ∈ rest.head?, c.isDigit = false) : digitRun (digits ++ rest) = digits := by
  unfold digitRun
  rw [List.takeWhile_append_of_pos hdigits]
  cases rest with
  | nil => simp
  | cons c others => simp [hrest c rfl]

theorem Ends.not_isDigit {rest : List Char} (hends : Ends rest) :
    ∀ c ∈ rest.head?, c.isDigit = false := by
  intro c hc
  rcases hends c hc with rfl | rfl | rfl <;> decide

/-- Only zero is written with a zero in front. -/
theorem toDigits_head? (n : Nat) (hn : n ≠ 0) : (Nat.toDigits 10 n).head? ≠ some '0' := by
  induction n using Nat.strongRecOn with
  | ind n ih =>
      rw [Nat.toDigits_eq_if (by decide)]
      split
      · rename_i hlt
        have hall : ∀ n < 10, n ≠ 0 → n.digitChar ≠ '0' := by decide
        simpa using hall n hlt hn
      · rw [List.head?_append_of_ne_nil _ Nat.toDigits_ne_nil]
        exact ih (n / 10) (by omega) (by omega)

theorem toDigits_eq_cons (n : Nat) :
    ∃ c others, Nat.toDigits 10 n = c :: others ∧ c.isDigit := by
  obtain ⟨c, others, heq⟩ := List.exists_cons_of_ne_nil (Nat.toDigits_ne_nil (b := 10) (n := n))
  have hdigit := Nat.isDigit_of_mem_toDigits (b := 10) (n := n) (c := c) (by decide) (by decide)
  exact ⟨c, others, heq, hdigit (by simp [heq])⟩

theorem takeWhole?_toDigits (n : Nat) {rest : List Char}
    (hrest : ∀ c ∈ rest.head?, c.isDigit = false) :
    takeWhole? (Nat.toDigits 10 n ++ rest) = some (Nat.toDigits 10 n) := by
  unfold takeWhole?
  rw [digitRun_append (fun c hc => Nat.isDigit_of_mem_toDigits (by decide) (by decide) hc) hrest]
  split
  · rename_i hnil
    exact absurd hnil Nat.toDigits_ne_nil
  · rename_i hzero
    by_cases hn : n = 0
    · simp [hn] at hzero
    · exact absurd (by simp [hzero]) (toDigits_head? n hn)
  · rfl

theorem takeNumber?_toDigits (n : Nat) {rest : List Char} (hends : Ends rest) :
    takeNumber? (Nat.toDigits 10 n ++ rest) = some (Nat.toDigits 10 n) := by
  have hsign : (Nat.toDigits 10 n ++ rest).head? ≠ some '-' := by
    obtain ⟨c, others, heq, hdigit⟩ := toDigits_eq_cons n
    rw [heq]
    rintro ⟨⟩
    exact absurd hdigit (by decide)
  have hfraction : takeFraction? rest = some [] := by
    cases rest with
    | nil => rfl
    | cons c others => rcases hends c rfl with rfl | rfl | rfl <;> rfl
  have hexponent : takeExponent? rest = some [] := by
    cases rest with
    | nil => rfl
    | cons c others => rcases hends c rfl with rfl | rfl | rfl <;> rfl
  simp only [takeNumber?, if_neg hsign, List.length_nil, List.drop_zero,
    takeWhole?_toDigits n hends.not_isDigit, List.drop_left, hfraction, hexponent,
    Option.bind_eq_bind, Option.bind_some, List.nil_append, List.append_nil, Option.pure_def]

theorem numeralOf_toDigits {n : Nat} (hn : n < UInt64.size) :
    numeralOf (Nat.toDigits 10 n) = .natural n := by
  have hvalue : (Nat.toDigits 10 n).foldl (fun n c => 10 * n + (c.toNat - '0'.toNat)) 0 = n :=
    Nat.ofDigitChars_ten_toDigits
  have hdigits : (Nat.toDigits 10 n).all Char.isDigit := List.all_eq_true.mpr fun c hc =>
    Nat.isDigit_of_mem_toDigits (by decide) (by decide) hc
  simp only [numeralOf, hvalue, hdigits, hn, decide_true, Bool.and_self, if_true]

theorem takeNumeral_toDigits {n : Nat} (hn : n < UInt64.size) {rest : List Char}
    (hends : Ends rest) :
    Yields (takeNumeral (Nat.toDigits 10 n ++ rest)) (.number (.natural n)) rest := by
  have hnumber := takeNumber?_toDigits n hends
  refine ⟨by simp [Nat.length_toDigits_pos], ?_⟩
  simp [takeNumeral, hnumber, numeralOf_toDigits hn]

/-! ### Values -/

/-- The characters of written items, without brackets. -/
def itemChars (items : List Json) : List Char :=
  (",".intercalate (compactItems items)).toList

/-- The characters of written members, without braces. -/
def memberChars (members : List (Option String × Json)) : List Char :=
  (",".intercalate (compactMembers members)).toList

theorem itemChars_cons (item : Json) (others : List Json) :
    itemChars (item :: others) =
      item.compact.toList ++ if others = [] then [] else ',' :: itemChars others := by
  cases others with
  | nil => simp [itemChars, compactItems]
  | cons next others => simp [itemChars, compactItems]

theorem memberChars_cons (name : Option String) (value : Json)
    (others : List (Option String × Json)) :
    memberChars ((name, value) :: others) =
      (textForm name).toList ++ ':' :: value.compact.toList ++
        if others = [] then [] else ',' :: memberChars others := by
  cases others with
  | nil => simp [memberChars, compactMembers]
  | cons next others => simp [memberChars, compactMembers]

mutual

/-- Whether a value has a written form of its own: its strings are proper, its numbers whole and
below `2 ^ 64`. -/
def isPlain : Json → Bool
  | .null => true
  | .bool _ => true
  | .number (.natural value) => value < UInt64.size
  | .number (.other _) => false
  | .string text => text.isSome
  | .array items => allPlain items
  | .object members => membersPlain members

/-- Whether all values of a list are plain. -/
def allPlain : List Json → Bool
  | [] => true
  | first :: others => first.isPlain && allPlain others

/-- Whether all members of a list are plain, with their names. -/
def membersPlain : List (Option String × Json) → Bool
  | [] => true
  | (name, value) :: others => name.isSome && value.isPlain && membersPlain others

end

/-- A plain value is written with a character in front that is no blank and closes nothing. -/
theorem compact_head {json : Json} (hplain : json.isPlain) :
    ∃ c others, json.compact.toList = c :: others ∧ isSpace c = false ∧ c ≠ ']' ∧ c ≠ '\x7d' := by
  cases json with
  | null => exact ⟨'n', ['u', 'l', 'l'], by simp [compact], by decide, by decide, by decide⟩
  | bool value =>
      cases value with
      | true => exact ⟨'t', ['r', 'u', 'e'], by simp [compact], by decide, by decide, by decide⟩
      | false =>
          exact ⟨'f', ['a', 'l', 's', 'e'], by simp [compact], by decide, by decide, by decide⟩
  | number value =>
      cases value with
      | other text => simp [isPlain] at hplain
      | natural n =>
          obtain ⟨c, others, heq, hdigit⟩ := toDigits_eq_cons n
          refine ⟨c, others, by simp [compact, numeralForm, heq], ?_, ?_, ?_⟩
          · by_contra hspace
            simp only [Bool.not_eq_false, isSpace, Bool.or_eq_true, decide_eq_true_eq] at hspace
            rcases hspace with ((rfl | rfl) | rfl) | rfl <;> simp at hdigit
          · rintro rfl; simp at hdigit
          · rintro rfl; simp at hdigit
  | string text =>
      exact ⟨'"', _, by simp [compact, textForm, quote_toList]; rfl, by decide, by decide,
        by decide⟩
  | array items => exact ⟨'[', _, by simp [compact]; rfl, by decide, by decide, by decide⟩
  | object members => exact ⟨'\x7b', _, by simp [compact]; rfl, by decide, by decide, by decide⟩

theorem takeString_textForm {text : Option String} (htext : text.isSome) (rest : List Char) :
    ∃ quoted, (textForm text).toList ++ rest = '"' :: quoted ∧
      Yields (takeString quoted) text rest := by
  obtain ⟨text, rfl⟩ := Option.isSome_iff_exists.mp htext
  refine ⟨(text.toList.flatMap fun c => (escape c).toList) ++ '"' :: rest, ?_, ?_⟩
  · simp [textForm, quote_toList]
  · have htaken := takeStringRest_quoted "" text.toList rest (Nat.le_refl _)
    rw [String.empty_append, String.ofList_toList] at htaken
    exact htaken

theorem skipSpaces_cons {c : Char} {rest : List Char} (hc : isSpace c = false) :
    skipSpaces (c :: rest) = c :: rest := by
  simp [skipSpaces, hc]

theorem skipSpaces_compact {json : Json} (hplain : json.isPlain) (rest : List Char) :
    skipSpaces (json.compact.toList ++ rest) = json.compact.toList ++ rest := by
  obtain ⟨c, others, heq, hspace, -⟩ := compact_head hplain
  rw [heq, List.cons_append, skipSpaces_cons hspace]

/-! ### Steps of the reader -/

variable {chars rest after left : List Char} {text name : Option String} {json item value : Json}
  {items : List Json} {members : List (Option String × Json)}

theorem takeValue_string (htaken : Yields (takeString chars) text rest) :
    Yields (takeValue ('"' :: chars)) (.string text) rest := by
  obtain ⟨shorter, htaken⟩ := htaken
  exact ⟨Nat.lt_succ_of_lt shorter, by simp [takeValue, htaken]⟩

theorem takeValue_array (htaken : Yields (takeFirstItem chars) items rest) :
    Yields (takeValue ('[' :: chars)) (.array items) rest := by
  obtain ⟨shorter, htaken⟩ := htaken
  exact ⟨Nat.lt_succ_of_lt shorter, by simp [takeValue, htaken]⟩

theorem takeValue_object (htaken : Yields (takeFirstMember chars) members rest) :
    Yields (takeValue ('\x7b' :: chars)) (.object members) rest := by
  obtain ⟨shorter, htaken⟩ := htaken
  exact ⟨Nat.lt_succ_of_lt shorter, by simp [takeValue, htaken]⟩

theorem takeValue_numeral {c : Char} (hdigit : c.isDigit)
    (htaken : Yields (takeNumeral (c :: chars)) json rest) :
    Yields (takeValue (c :: chars)) json rest := by
  have hother : ∀ other : Char, other.isDigit = false → c ≠ other := by
    rintro other hother rfl
    simp [hother] at hdigit
  have hquote := hother '"' (by decide)
  have hbracket := hother '[' (by decide)
  have hbrace := hother '\x7b' (by decide)
  have hn := hother 'n' (by decide)
  have ht := hother 't' (by decide)
  have hf := hother 'f' (by decide)
  rw [takeValue]
  · exact htaken
  all_goals simp_all

theorem takeFirstItem_close (hspaces : skipSpaces chars = ']' :: rest) :
    Yields (takeFirstItem chars) [] rest := by
  have hlength := length_skipSpaces_le chars
  rw [hspaces] at hlength
  refine ⟨by simp at hlength; omega, ?_⟩
  rw [takeFirstItem]
  split
  · rename_i hc
    cases hspaces.symm.trans hc
    rfl
  · rename_i hnone
    exact absurd hspaces (hnone rest)

theorem takeFirstItem_items (hspaces : ∀ rest, skipSpaces chars ≠ ']' :: rest)
    (htaken : Yields (takeItems chars) items rest) : Yields (takeFirstItem chars) items rest := by
  obtain ⟨shorter, htaken⟩ := htaken
  refine ⟨shorter, ?_⟩
  rw [takeFirstItem]
  split
  · rename_i hc
    exact absurd hc (hspaces _)
  · exact htaken

/-- An item is taken before the closing bracket, or before a comma and the other items. -/
theorem takeItems_cons (hitem : Yields (takeValue (skipSpaces chars)) item after)
    (hothers : (skipSpaces after = ']' :: left ∧ items = []) ∨
      ∃ rest, skipSpaces after = ',' :: rest ∧ Yields (takeItems rest) items left) :
    Yields (takeItems chars) (item :: items) left := by
  obtain ⟨shorter, hitem⟩ := hitem
  have hchars := length_skipSpaces_le chars
  have hafter := length_skipSpaces_le after
  have hleft : left.length < after.length := by
    rcases hothers with ⟨hspaces, -⟩ | ⟨rest, hspaces, hless, -⟩
    · rwa [hspaces] at hafter
    · rw [hspaces, List.length_cons] at hafter
      omega
  refine ⟨by omega, ?_⟩
  rw [takeItems]
  simp only [hitem, Option.bind_eq_bind, Option.bind_some]
  split
  · rename_i hclose
    rcases hothers with ⟨hspaces, rfl⟩ | ⟨rest, hspaces, -⟩
    · cases hspaces.symm.trans hclose
      rfl
    · cases hspaces.symm.trans hclose
  · rename_i hcomma
    rcases hothers with ⟨hspaces, -⟩ | ⟨rest, hspaces, _, hitems⟩
    · cases hspaces.symm.trans hcomma
    · cases hspaces.symm.trans hcomma
      simp [hitems]
  · rename_i hclose hcomma
    rcases hothers with ⟨hspaces, -⟩ | ⟨rest, hspaces, -⟩
    · exact absurd hspaces (hclose left)
    · exact absurd hspaces (hcomma rest)

theorem takeFirstMember_close (hspaces : skipSpaces chars = '\x7d' :: rest) :
    Yields (takeFirstMember chars) [] rest := by
  have hlength := length_skipSpaces_le chars
  rw [hspaces] at hlength
  refine ⟨by simp at hlength; omega, ?_⟩
  rw [takeFirstMember]
  split
  · rename_i hc
    cases hspaces.symm.trans hc
    rfl
  · rename_i hnone
    exact absurd hspaces (hnone rest)

theorem takeFirstMember_members (hspaces : ∀ rest, skipSpaces chars ≠ '\x7d' :: rest)
    (htaken : Yields (takeMembers chars) members rest) :
    Yields (takeFirstMember chars) members rest := by
  obtain ⟨shorter, htaken⟩ := htaken
  refine ⟨shorter, ?_⟩
  rw [takeFirstMember]
  split
  · rename_i hc
    exact absurd hc (hspaces _)
  · exact htaken

/-- A member stands at the front: its name, a colon and its value, with blanks between them. -/
def MemberAt (chars : List Char) (name : Option String) (value : Json) (after : List Char) : Prop :=
  ∃ quoted nameRest afterColon, skipSpaces chars = '"' :: quoted ∧
    Yields (takeString quoted) name nameRest ∧ skipSpaces nameRest = ':' :: afterColon ∧
    Yields (takeValue (skipSpaces afterColon)) value after

theorem length_value_lt {quoted nameRest afterColon : List Char}
    (hquoted : skipSpaces chars = '"' :: quoted) (hname : Yields (takeString quoted) name nameRest)
    (hcolon : skipSpaces nameRest = ':' :: afterColon) :
    (skipSpaces afterColon).length < chars.length := by
  obtain ⟨hname, -⟩ := hname
  have hchars := length_skipSpaces_le chars
  rw [hquoted] at hchars
  have hrest := length_skipSpaces_le nameRest
  rw [hcolon] at hrest
  have hspaces := length_skipSpaces_le afterColon
  simp only [List.length_cons] at hchars hrest
  omega

theorem MemberAt.length_lt (hmember : MemberAt chars name value after) :
    after.length < chars.length := by
  obtain ⟨quoted, nameRest, afterColon, hquoted, hname, hcolon, hvalue, -⟩ := hmember
  exact Nat.lt_trans hvalue (length_value_lt hquoted hname hcolon)

/-- A member is taken before the closing brace, or before a comma and the other members. -/
theorem takeMembers_cons (hmember : MemberAt chars name value after)
    (hothers : (skipSpaces after = '\x7d' :: left ∧ members = []) ∨
      ∃ rest, skipSpaces after = ',' :: rest ∧ Yields (takeMembers rest) members left) :
    Yields (takeMembers chars) ((name, value) :: members) left := by
  have hlength := hmember.length_lt
  have hafter := length_skipSpaces_le after
  have hleft : left.length < after.length := by
    rcases hothers with ⟨hspaces, -⟩ | ⟨rest, hspaces, hless, -⟩
    · rwa [hspaces] at hafter
    · rw [hspaces, List.length_cons] at hafter
      omega
  obtain ⟨quoted, nameRest, afterColon, hquoted, ⟨_, hname⟩, hcolon, ⟨_, hvalue⟩⟩ := hmember
  refine ⟨by omega, ?_⟩
  rw [takeMembers]
  split
  · rename_i hfront
    cases hquoted.symm.trans hfront
    simp only [hname, Option.bind_eq_bind, Option.bind_some]
    split
    · rename_i hbehind
      cases hcolon.symm.trans hbehind
      simp only [hvalue, Option.bind_some]
      split
      · rename_i hclose
        rcases hothers with ⟨hspaces, rfl⟩ | ⟨rest, hspaces, -⟩
        · cases hspaces.symm.trans hclose
          rfl
        · cases hspaces.symm.trans hclose
      · rename_i hcomma
        rcases hothers with ⟨hspaces, -⟩ | ⟨rest, hspaces, _, hmembers⟩
        · cases hspaces.symm.trans hcomma
        · cases hspaces.symm.trans hcomma
          simp [hmembers]
      · rename_i hclose hcomma
        rcases hothers with ⟨hspaces, -⟩ | ⟨rest, hspaces, -⟩
        · exact absurd hspaces (hclose left)
        · exact absurd hspaces (hcomma rest)
    · rename_i hnone
      exact absurd hcolon (hnone afterColon)
  · rename_i hnone
    exact absurd hquoted (hnone quoted)

/-! ### Reading what was written -/

theorem ends_cons {c : Char} (hc : c = ',' ∨ c = ']' ∨ c = '\x7d') (rest : List Char) :
    Ends (c :: rest) := by
  rintro other ⟨⟩
  exact hc

mutual

/-- Every plain value is read back from its written form. -/
theorem takeValue_compact (json : Json) (hplain : json.isPlain) {rest : List Char}
    (hends : Ends rest) : Yields (takeValue (json.compact.toList ++ rest)) json rest := by
  match json with
  | .null =>
      refine ⟨by simp [compact]; omega, ?_⟩
      simp [compact, takeValue, takeWord]
  | .bool true =>
      refine ⟨by simp [compact]; omega, ?_⟩
      simp [compact, takeValue, takeWord]
  | .bool false =>
      refine ⟨by simp [compact]; omega, ?_⟩
      simp [compact, takeValue, takeWord]
  | .number (.natural n) =>
      simp only [isPlain, decide_eq_true_eq] at hplain
      have hnumeral := takeNumeral_toDigits hplain hends
      obtain ⟨c, others, hdigits, hdigit⟩ := toDigits_eq_cons n
      rw [hdigits, List.cons_append] at hnumeral
      rw [compact, numeralForm, Nat.toString_eq_repr, Nat.toList_repr, hdigits]
      exact takeValue_numeral hdigit hnumeral
  | .string text =>
      obtain ⟨quoted, hquoted, htaken⟩ := takeString_textForm hplain rest
      rw [compact, hquoted]
      exact takeValue_string htaken
  | .array items =>
      have htext : (Json.array items).compact.toList ++ rest =
          '[' :: (itemChars items ++ ']' :: rest) := by
        simp [compact, itemChars]
      rw [htext]
      apply takeValue_array
      match items with
      | [] => exact takeFirstItem_close (skipSpaces_cons (by decide))
      | first :: others =>
          refine takeFirstItem_items (fun after => ?_)
            (takeItems_itemChars (first :: others) hplain (List.cons_ne_nil _ _))
          simp only [isPlain, allPlain, Bool.and_eq_true] at hplain
          obtain ⟨c, _, heq, hspace, hbracket, -⟩ := compact_head hplain.1
          simp [itemChars_cons, heq, skipSpaces_cons hspace, hbracket]
  | .object members =>
      have htext : (Json.object members).compact.toList ++ rest =
          '\x7b' :: (memberChars members ++ '\x7d' :: rest) := by
        simp [compact, memberChars]
      rw [htext]
      apply takeValue_object
      match members with
      | [] => exact takeFirstMember_close (skipSpaces_cons (by decide))
      | (name, first) :: others =>
          refine takeFirstMember_members (fun after => ?_)
            (takeMembers_memberChars ((name, first) :: others) hplain (List.cons_ne_nil _ _))
          simp only [isPlain, membersPlain, Bool.and_eq_true] at hplain
          obtain ⟨quoted, hquoted, -⟩ := takeString_textForm hplain.1.1 []
          rw [List.append_nil] at hquoted
          simp [memberChars_cons, hquoted, skipSpaces_cons (show isSpace '"' = false by decide)]

/-- Items are read back up to the closing bracket. -/
theorem takeItems_itemChars (items : List Json) (hplain : allPlain items) (hitems : items ≠ [])
    {rest : List Char} : Yields (takeItems (itemChars items ++ ']' :: rest)) items rest := by
  match items with
  | [first] =>
      simp only [allPlain, Bool.and_eq_true] at hplain
      have hfirst := takeValue_compact first hplain.1 (ends_cons (.inr (.inl rfl)) rest)
      rw [itemChars_cons, if_pos rfl, List.append_nil]
      refine takeItems_cons ?_ (.inl ⟨skipSpaces_cons (by decide), rfl⟩)
      rwa [skipSpaces_compact hplain.1]
  | first :: next :: others =>
      rw [allPlain, Bool.and_eq_true] at hplain
      have hfirst := takeValue_compact first hplain.1
        (ends_cons (.inl rfl) (itemChars (next :: others) ++ ']' :: rest))
      rw [itemChars_cons, if_neg (List.cons_ne_nil _ _), List.append_assoc]
      refine takeItems_cons ?_ (.inr ⟨_, skipSpaces_cons (by decide),
        takeItems_itemChars (next :: others) hplain.2 (List.cons_ne_nil _ _)⟩)
      rwa [skipSpaces_compact hplain.1]

/-- Members are read back up to the closing brace. -/
theorem takeMembers_memberChars (members : List (Option String × Json))
    (hplain : membersPlain members) (hmembers : members ≠ []) {rest : List Char} :
    Yields (takeMembers (memberChars members ++ '\x7d' :: rest)) members rest := by
  match members with
  | (name, first) :: others =>
      simp only [membersPlain, Bool.and_eq_true] at hplain
      have hmember : ∀ after, Ends after →
          MemberAt ((textForm name).toList ++ ':' :: first.compact.toList ++ after) name first
            after := by
        intro after hafter
        obtain ⟨quoted, hquoted, htaken⟩ :=
          takeString_textForm hplain.1.1 (':' :: (first.compact.toList ++ after))
        refine ⟨quoted, _, _, ?_, htaken, skipSpaces_cons (by decide), ?_⟩
        · rw [List.append_assoc, List.cons_append, hquoted]
          exact skipSpaces_cons (by decide)
        · rw [skipSpaces_compact hplain.1.2]
          exact takeValue_compact first hplain.1.2 hafter
      rw [memberChars_cons, List.append_assoc]
      match others with
      | [] =>
          exact takeMembers_cons (hmember _ (ends_cons (.inr (.inr rfl)) _))
            (.inl ⟨skipSpaces_cons (by decide), rfl⟩)
      | next :: others =>
          rw [if_neg (List.cons_ne_nil _ _)]
          exact takeMembers_cons (hmember _ (ends_cons (.inl rfl) _))
            (.inr ⟨_, skipSpaces_cons (by decide),
              takeMembers_memberChars (next :: others) hplain.2 (List.cons_ne_nil _ _)⟩)

end

/-- A plain value that is written on one line is read as itself. -/
theorem read?_compact {json : Json} (hplain : json.isPlain) : read? json.compact = some json := by
  have hspaces := skipSpaces_compact hplain []
  have htaken := takeValue_compact json hplain (show Ends [] by simp [Ends])
  rw [← hspaces, List.append_nil] at htaken
  obtain ⟨shorter, htaken⟩ := htaken
  simp only [read?, htaken, Option.bind_eq_bind, Option.bind_some]
  rfl

/-! ### Lines -/

theorem space_le_hexDigit {n : Nat} (hn : n < 16) : ' ' ≤ hexDigit n := by
  have hall : ∀ n < 16, ' ' ≤ hexDigit n := by decide
  exact hall n hn

theorem space_le_of_mem_escape {c written : Char} (hwritten : written ∈ (escape c).toList) :
    ' ' ≤ written := by
  rcases escape_cases c with ⟨letter, -, -, hletter, hescape⟩ | ⟨hcontrol, hescape⟩ |
    ⟨-, -, hcontrol, hescape⟩
  · rw [hescape] at hwritten
    rcases List.mem_cons.mp hwritten with rfl | hwritten
    · decide
    · rwa [List.mem_singleton.mp hwritten]
  · rw [hescape] at hwritten
    simp only [List.mem_cons, List.not_mem_nil, or_false] at hwritten
    rcases hwritten with rfl | rfl | rfl | rfl | rfl | rfl
    · decide
    · decide
    · decide
    · decide
    · exact space_le_hexDigit (by omega)
    · exact space_le_hexDigit (by omega)
  · rw [hescape, List.mem_singleton] at hwritten
    rw [hwritten]
    exact Nat.le_trans (by decide) hcontrol

theorem space_le_of_mem_textForm {text : Option String} {c : Char}
    (hc : c ∈ (textForm text).toList) : ' ' ≤ c := by
  simp only [textForm, quote_toList, List.cons_append, List.mem_cons, List.mem_append,
    List.mem_flatMap, List.not_mem_nil, or_false] at hc
  rcases hc with rfl | ⟨_, _, hc⟩ | rfl
  · decide
  · exact space_le_of_mem_escape hc
  · decide

mutual

/-- A written value holds no line break and no other control character. -/
theorem space_le_of_mem_compact (json : Json) (hplain : json.isPlain) :
    ∀ c ∈ json.compact.toList, ' ' ≤ c := by
  match json with
  | .null => simp [compact]
  | .bool true => simp [compact]
  | .bool false => simp [compact]
  | .number (.natural n) =>
      intro c hc
      rw [compact, numeralForm, Nat.toString_eq_repr, Nat.toList_repr] at hc
      have hdigit := Nat.isDigit_of_mem_toDigits (by decide) (by decide) hc
      simp only [Char.isDigit, Bool.and_eq_true, decide_eq_true_eq] at hdigit
      exact UInt32.le_trans (by decide) hdigit.1
  | .string text => exact fun c hc => space_le_of_mem_textForm (by simpa [compact] using hc)
  | .array items =>
      intro c hc
      have hitems := space_le_of_mem_itemChars items hplain c
      simp only [compact, String.toList_append, List.mem_append] at hc
      rcases hc with (hc | hc) | hc
      · simp at hc; simp [hc]
      · exact hitems hc
      · simp at hc; simp [hc]
  | .object members =>
      intro c hc
      have hmembers := space_le_of_mem_memberChars members hplain c
      simp only [compact, String.toList_append, List.mem_append] at hc
      rcases hc with (hc | hc) | hc
      · simp at hc; simp [hc]
      · exact hmembers hc
      · simp at hc; simp [hc]

theorem space_le_of_mem_itemChars (items : List Json) (hplain : allPlain items) :
    ∀ c ∈ itemChars items, ' ' ≤ c := by
  match items with
  | [] => simp [itemChars, compactItems]
  | first :: others =>
      rw [allPlain, Bool.and_eq_true] at hplain
      have hfirst := space_le_of_mem_compact first hplain.1
      have hothers := space_le_of_mem_itemChars others hplain.2
      intro c hc
      rw [itemChars_cons, List.mem_append] at hc
      rcases hc with hc | hc
      · exact hfirst c hc
      · split at hc
        · simp at hc
        · rcases List.mem_cons.mp hc with rfl | hc
          · decide
          · exact hothers c hc

theorem space_le_of_mem_memberChars (members : List (Option String × Json))
    (hplain : membersPlain members) : ∀ c ∈ memberChars members, ' ' ≤ c := by
  match members with
  | [] => simp [memberChars, compactMembers]
  | (name, first) :: others =>
      simp only [membersPlain, Bool.and_eq_true] at hplain
      have hfirst := space_le_of_mem_compact first hplain.1.2
      have hothers := space_le_of_mem_memberChars others hplain.2
      intro c hc
      rw [memberChars_cons] at hc
      simp only [List.mem_append, List.mem_cons] at hc
      rcases hc with (hc | rfl | hc) | hc
      · exact space_le_of_mem_textForm hc
      · decide
      · exact hfirst c hc
      · split at hc
        · simp at hc
        · rcases List.mem_cons.mp hc with rfl | hc
          · decide
          · exact hothers c hc

end

end GateBench.Json
