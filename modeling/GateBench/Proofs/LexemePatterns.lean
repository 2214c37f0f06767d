import GateBench.Syntax.Lexer
import Mathlib.Computability.Language
import Mathlib.Data.List.TakeWhile

/-!
The patterns of lexemes as regular languages, and what it is to be the longest match of one at the
front of a text.  The first character of a text tells which patterns can match there at all.
-/

namespace GateBench.Syntax

open Computability

/-! ### Patterns -/

/-- One character of a kind. -/
def oneOf (kind : Char → Bool) : Language Char :=
  {chars | ∃ c, kind c ∧ chars = [c]}

/-- One or more characters of a kind. -/
def someOf (kind : Char → Bool) : Language Char :=
  oneOf kind * (oneOf kind)∗

/-- Nothing but the given characters. -/
def just (chars : List Char) : Language Char :=
  {chars}

/-- `[eE][+-]?[0-9]+` -/
def exponentForm : Language Char :=
  oneOf (fun c => c = 'e' || c = 'E') * (1 + oneOf fun c => c = '+' || c = '-') * someOf isDigit

/-- The kinds of lexemes; `blank` and `comment` are skipped. -/
inductive Pattern where
  | blank
  | comment
  | keyword (word : Keyword)
  | pointed
  | scientific
  | digits
  | name
  | mark (shape : Mark)

/-- The characters that a kind of lexeme can have. -/
def Pattern.form : Pattern → Language Char
  | .blank => someOf isSpace
  | .comment => just ['/', '/'] * (oneOf (· ≠ '\n'))∗
  | .keyword word => just word.text.toList
  | .pointed => someOf isDigit * just ['.'] * (oneOf isDigit)∗ * (1 + exponentForm)
  | .scientific => someOf isDigit * exponentForm
  | .digits => someOf isDigit
  | .name => oneOf isNameStart * (oneOf isNameChar)∗
  | .mark shape => just [shape.char]

/-- At the front of `text`, `chars` is a match of the pattern, and no pattern has a longer one. -/
structure IsLongestMatch (text chars : List Char) (pattern : Pattern) : Prop where
  leads : chars <+: text
  matched : chars ∈ pattern.form
  longest : ∀ (other : Pattern) (others : List Char), others <+: text → others ∈ other.form →
    others.length ≤ chars.length

/-! ### Characters of the patterns -/

section Kinds

variable {kind : Char → Bool} {chars : List Char}

theorem mem_oneOf_kstar : chars ∈ (oneOf kind)∗ ↔ ∀ c ∈ chars, kind c := by
  rw [Language.mem_kstar]
  constructor
  · rintro ⟨pieces, rfl, hpieces⟩ c hc
    obtain ⟨piece, hpiece, hc⟩ := List.mem_flatten.mp hc
    obtain ⟨other, hother, rfl⟩ := hpieces piece hpiece
    rwa [List.mem_singleton.mp hc]
  · intro hchars
    refine ⟨chars.map fun c => [c], (List.flatMap_singleton' chars).symm, fun piece hpiece => ?_⟩
    obtain ⟨c, hc, rfl⟩ := List.mem_map.mp hpiece
    exact ⟨c, hchars c hc, rfl⟩

theorem mem_oneOf_mul {back : Language Char} :
    chars ∈ oneOf kind * back ↔ ∃ c rest, chars = c :: rest ∧ kind c ∧ rest ∈ back := by
  rw [Language.mem_mul]
  constructor
  · rintro ⟨_, ⟨c, hc, rfl⟩, rest, hrest, rfl⟩
    exact ⟨c, rest, rfl, hc, hrest⟩
  · rintro ⟨c, rest, rfl, hc, hrest⟩
    exact ⟨[c], ⟨c, hc, rfl⟩, rest, hrest, rfl⟩

theorem mem_someOf : chars ∈ someOf kind ↔ chars ≠ [] ∧ ∀ c ∈ chars, kind c := by
  simp only [someOf, mem_oneOf_mul, mem_oneOf_kstar]
  constructor
  · rintro ⟨c, rest, rfl, hc, hrest⟩
    exact ⟨nofun, List.forall_mem_cons.mpr ⟨hc, hrest⟩⟩
  · rintro ⟨hsome, hchars⟩
    obtain ⟨c, rest, rfl⟩ := List.exists_cons_of_ne_nil hsome
    obtain ⟨hc, hrest⟩ := List.forall_mem_cons.mp hchars
    exact ⟨c, rest, rfl, hc, hrest⟩

theorem mem_just_mul {front : List Char} {back : Language Char} :
    chars ∈ just front * back ↔ ∃ rest ∈ back, chars = front ++ rest := by
  rw [Language.mem_mul]
  constructor
  · rintro ⟨_, rfl, rest, hrest, rfl⟩
    exact ⟨rest, hrest, rfl⟩
  · rintro ⟨rest, hrest, rfl⟩
    exact ⟨front, rfl, rest, hrest, rfl⟩

end Kinds

theorem mem_exponentForm {chars : List Char} :
    chars ∈ exponentForm ↔ ∃ letter sign digits, chars = letter :: (sign ++ digits) ∧
      (letter = 'e' ∨ letter = 'E') ∧ (sign = [] ∨ sign = ['+'] ∨ sign = ['-']) ∧
        digits ≠ [] ∧ ∀ c ∈ digits, isDigit c := by
  rw [exponentForm, mul_assoc, mem_oneOf_mul]
  simp only [Language.mem_mul, Language.mem_add, Language.mem_one, mem_someOf]
  constructor
  · rintro ⟨letter, _, rfl, hletter, sign, hsign, digits, ⟨hsome, hdigits⟩, rfl⟩
    refine ⟨letter, sign, digits, rfl, by simpa using hletter, ?_, hsome, hdigits⟩
    rcases hsign with rfl | ⟨c, hc, rfl⟩
    · exact .inl rfl
    · simpa using hc
  · rintro ⟨letter, sign, digits, rfl, hletter, hsign, hsome, hdigits⟩
    refine ⟨letter, _, rfl, by simpa using hletter, sign, ?_, digits, ⟨hsome, hdigits⟩, rfl⟩
    rcases hsign with rfl | rfl | rfl
    · exact .inl rfl
    · exact .inr ⟨'+', rfl, rfl⟩
    · exact .inr ⟨'-', rfl, rfl⟩

/-- What may stand behind the digits of a number: nothing, or an exponent. -/
theorem mem_one_add_exponentForm {chars : List Char} :
    chars ∈ 1 + exponentForm ↔ chars = [] ∨ chars ∈ exponentForm := by
  rw [Language.mem_add, Language.mem_one]

theorem mem_pointed {chars : List Char} :
    chars ∈ Pattern.pointed.form ↔ ∃ whole fraction exponent,
      chars = whole ++ '.' :: (fraction ++ exponent) ∧ whole ∈ someOf isDigit ∧
        (∀ c ∈ fraction, isDigit c) ∧ exponent ∈ 1 + exponentForm := by
  rw [Pattern.form, mul_assoc, mul_assoc, Language.mem_mul]
  constructor
  · rintro ⟨whole, hwhole, behind, hbehind, rfl⟩
    obtain ⟨rest, hrest, rfl⟩ := mem_just_mul.mp hbehind
    obtain ⟨fraction, hfraction, exponent, hexponent, rfl⟩ := Language.mem_mul.mp hrest
    exact ⟨whole, fraction, exponent, rfl, hwhole, mem_oneOf_kstar.mp hfraction, hexponent⟩
  · rintro ⟨whole, fraction, exponent, rfl, hwhole, hfraction, hexponent⟩
    have hrest := Language.append_mem_mul (mem_oneOf_kstar.mpr hfraction) hexponent
    exact ⟨whole, hwhole, _, mem_just_mul.mpr ⟨_, hrest, rfl⟩, rfl⟩

theorem mem_comment {chars : List Char} :
    chars ∈ Pattern.comment.form ↔ ∃ rest, chars = '/' :: '/' :: rest ∧ ∀ c ∈ rest, c ≠ '\n' := by
  simp only [Pattern.form, mem_just_mul, mem_oneOf_kstar, decide_eq_true_eq, List.cons_append,
    List.nil_append, and_comm]

/-! ### Which patterns can match -/

/-- A match of the pattern can begin with the character. -/
def Pattern.Starts : Pattern → Char → Prop
  | .blank, c => isSpace c
  | .comment, c => c = '/'
  | .keyword word, c => word.text.toList.head? = some c
  | .pointed, c | .scientific, c | .digits, c => isDigit c
  | .name, c => isNameStart c
  | .mark shape, c => c = shape.char

theorem Pattern.starts_of_mem {pattern : Pattern} {chars : List Char} (h : chars ∈ pattern.form) :
    ∃ c rest, chars = c :: rest ∧ pattern.Starts c := by
  have hdigits {front : List Char} (hfront : front ∈ someOf isDigit) (back : List Char) :
      ∃ c rest, front ++ back = c :: rest ∧ isDigit c := by
    obtain ⟨c, rest, rfl, hc, -⟩ := mem_oneOf_mul.mp hfront
    exact ⟨c, rest ++ back, rfl, hc⟩
  cases pattern with
  | blank | name =>
      obtain ⟨c, rest, rfl, hc, -⟩ := mem_oneOf_mul.mp h
      exact ⟨c, rest, rfl, hc⟩
  | comment =>
      obtain ⟨rest, rfl, -⟩ := mem_comment.mp h
      exact ⟨'/', _, rfl, rfl⟩
  | keyword word =>
      obtain rfl : chars = word.text.toList := h
      cases word <;> exact ⟨_, _, rfl, rfl⟩
  | pointed =>
      obtain ⟨whole, fraction, exponent, rfl, hwhole, -⟩ := mem_pointed.mp h
      exact hdigits hwhole _
  | scientific =>
      obtain ⟨whole, hwhole, exponent, -, rfl⟩ := Language.mem_mul.mp h
      exact hdigits hwhole exponent
  | digits =>
      obtain ⟨c, rest, hsplit, hc⟩ := hdigits h []
      exact ⟨c, rest, by rwa [List.append_nil] at hsplit, hc⟩
  | mark shape => exact ⟨shape.char, [], h, rfl⟩

/-- Only patterns that the first character of a text starts match at its front. -/
theorem Pattern.starts_of_prefix {pattern : Pattern} {c : Char} {rest chars : List Char}
    (hchars : chars <+: c :: rest) (h : chars ∈ pattern.form) : pattern.Starts c := by
  obtain ⟨first, others, rfl, hstarts⟩ := starts_of_mem h
  obtain ⟨rfl, -⟩ := List.cons_prefix_cons.mp hchars
  exact hstarts

theorem not_isDigit_of_isSpace {c : Char} (h : isSpace c) : ¬ isDigit c := by
  simp only [isSpace, Bool.or_eq_true, decide_eq_true_eq] at h
  rcases h with ((rfl | rfl) | rfl) | rfl <;> decide

theorem not_isNameStart_of_isSpace {c : Char} (h : isSpace c) : ¬ isNameStart c := by
  simp only [isSpace, Bool.or_eq_true, decide_eq_true_eq] at h
  rcases h with ((rfl | rfl) | rfl) | rfl <;> decide

theorem not_isNameStart_of_isDigit {c : Char} (h : isDigit c) : ¬ isNameStart c := by
  simp only [isDigit, isNameStart, Bool.and_eq_true, Bool.or_eq_true, decide_eq_true_eq,
    Char.le_def, UInt32.le_iff_toNat_le] at h ⊢
  rintro ((hlower | hupper) | rfl)
  · have : '9'.val.toNat < 'a'.val.toNat := by decide
    omega
  · have : '9'.val.toNat < 'A'.val.toNat := by decide
    omega
  · exact absurd h.2 (by decide)

/-- A character of none of the kinds that patterns have runs of. -/
def IsSign (c : Char) : Prop :=
  ¬ isSpace c ∧ ¬ isDigit c ∧ ¬ isNameStart c

theorem isSign_slash : IsSign '/' :=
  ⟨by decide, by decide, by decide⟩

theorem isSign_at : IsSign '@' :=
  ⟨by decide, by decide, by decide⟩

theorem Mark.isSign_char (shape : Mark) : IsSign shape.char := by
  cases shape <;> exact ⟨by decide, by decide, by decide⟩

theorem Mark.char_ne_at (shape : Mark) : shape.char ≠ '@' := by
  cases shape <;> decide

theorem Keyword.head_text (word : Keyword) :
    word = .entryMark ∧ word.text.toList.head? = some '@' ∨
      word ≠ .entryMark ∧ ∃ c, word.text.toList.head? = some c ∧ isNameStart c := by
  cases word with
  | entryMark => exact .inl ⟨rfl, rfl⟩
  | _ => exact .inr ⟨nofun, _, rfl, rfl⟩

namespace Pattern

variable {pattern : Pattern} {c : Char}

/-- The first character tells four groups of patterns apart. -/
theorem Starts.kinds (hstarts : pattern.Starts c) :
    (isSpace c ∧ pattern = .blank) ∨
    (isDigit c ∧ (pattern = .digits ∨ pattern = .pointed ∨ pattern = .scientific)) ∨
    (isNameStart c ∧ (pattern = .name ∨ ∃ word, pattern = .keyword word ∧ word ≠ .entryMark)) ∨
    (IsSign c ∧ (pattern = .comment ∧ c = '/' ∨ pattern = .keyword .entryMark ∧ c = '@' ∨
      ∃ shape, pattern = .mark shape ∧ c = shape.char)) := by
  cases pattern with
  | blank => exact .inl ⟨hstarts, rfl⟩
  | digits => exact .inr (.inl ⟨hstarts, .inl rfl⟩)
  | pointed => exact .inr (.inl ⟨hstarts, .inr (.inl rfl)⟩)
  | scientific => exact .inr (.inl ⟨hstarts, .inr (.inr rfl)⟩)
  | name => exact .inr (.inr (.inl ⟨hstarts, .inl rfl⟩))
  | keyword word =>
      rcases word.head_text with ⟨rfl, hhead⟩ | ⟨hword, first, hhead, hfirst⟩
      · obtain rfl := Option.some.inj (hhead.symm.trans hstarts)
        exact .inr (.inr (.inr ⟨isSign_at, .inr (.inl ⟨rfl, rfl⟩)⟩))
      · obtain rfl := Option.some.inj (hhead.symm.trans hstarts)
        exact .inr (.inr (.inl ⟨hfirst, .inr ⟨word, rfl, hword⟩⟩))
  | comment =>
      obtain rfl : c = '/' := hstarts
      exact .inr (.inr (.inr ⟨isSign_slash, .inl ⟨rfl, rfl⟩⟩))
  | mark shape =>
      obtain rfl : c = shape.char := hstarts
      exact .inr (.inr (.inr ⟨shape.isSign_char, .inr (.inr ⟨shape, rfl, rfl⟩)⟩))

theorem Starts.eq_blank (hstarts : pattern.Starts c) (hc : isSpace c) : pattern = .blank := by
  rcases hstarts.kinds with ⟨-, hblank⟩ | ⟨hdigit, -⟩ | ⟨hname, -⟩ | ⟨hsign, -⟩
  · exact hblank
  · exact absurd hdigit (not_isDigit_of_isSpace hc)
  · exact absurd hname (not_isNameStart_of_isSpace hc)
  · exact absurd hc hsign.1

theorem Starts.number (hstarts : pattern.Starts c) (hc : isDigit c) :
    pattern = .digits ∨ pattern = .pointed ∨ pattern = .scientific := by
  rcases hstarts.kinds with ⟨hspace, -⟩ | ⟨-, hnumber⟩ | ⟨hname, -⟩ | ⟨hsign, -⟩
  · exact absurd hc (not_isDigit_of_isSpace hspace)
  · exact hnumber
  · exact absurd hname (not_isNameStart_of_isDigit hc)
  · exact absurd hc hsign.2.1

theorem Starts.word (hstarts : pattern.Starts c) (hc : isNameStart c) :
    pattern = .name ∨ ∃ word, pattern = .keyword word ∧ word ≠ .entryMark := by
  rcases hstarts.kinds with ⟨hspace, -⟩ | ⟨hdigit, -⟩ | ⟨-, hword⟩ | ⟨hsign, -⟩
  · exact absurd hc (not_isNameStart_of_isSpace hspace)
  · exact absurd hc (not_isNameStart_of_isDigit hdigit)
  · exact hword
  · exact absurd hc hsign.2.2

theorem Starts.sign (hstarts : pattern.Starts c) (hc : IsSign c) :
    pattern = .comment ∧ c = '/' ∨ pattern = .keyword .entryMark ∧ c = '@' ∨
      ∃ shape, pattern = .mark shape ∧ c = shape.char := by
  rcases hstarts.kinds with ⟨hspace, -⟩ | ⟨hdigit, -⟩ | ⟨hname, -⟩ | ⟨-, hsign⟩
  · exact absurd hspace hc.1
  · exact absurd hdigit hc.2.1
  · exact absurd hname hc.2.2
  · exact hsign

end Pattern

/-! ### Runs of a kind -/

section Runs

variable {kind : Char → Bool} {run back text : List Char}

theorem length_le_takeWhile (hrun : run <+: text) (hkind : ∀ c ∈ run, kind c) :
    run.length ≤ (text.takeWhile kind).length := by
  obtain ⟨behind, rfl⟩ := hrun
  rw [List.takeWhile_append_of_pos hkind, List.length_append]
  exact Nat.le_add_right _ _

/-- A run with another kind of character behind it is the longest one. -/
theorem eq_takeWhile_of_append {c : Char} (hrun : run ++ c :: back <+: text)
    (hkind : ∀ c ∈ run, kind c) (hc : ¬ kind c) :
    run = text.takeWhile kind ∧ c :: back <+: text.drop run.length := by
  obtain ⟨rest, rfl⟩ := hrun
  constructor
  · rw [List.append_assoc, List.takeWhile_append_of_pos hkind, List.cons_append,
      List.takeWhile_cons_of_neg hc, List.append_nil]
  · rw [List.append_assoc, List.drop_left]
    exact List.prefix_append _ _

end Runs

end GateBench.Syntax
