import GateBench.Proofs.JsonText
import GateBench.Text.Blank
import Mathlib.Data.List.DropRight

/-!
Reading a value with blanks around it.  A text is trimmed of all white space of Unicode, but a
reader passes over the blanks of JSON only; behind a value, other white space is left over, and in
front of one nothing is read.
-/

namespace GateBench

/-- The characters that trimming takes off a text, the blank runs at both ends. -/
def Text.margins (text : String) : List Char :=
  let chars := text.toList
  chars.takeWhile isBlank ++ ((chars.dropWhile isBlank).reverse.takeWhile isBlank).reverse

/-- A text is what trimming leaves of it between the blanks that it takes off. -/
theorem Text.exists_margins (text : String) :
    ∃ front back, text.toList = front ++ ((trim text).toList ++ back) ∧
      margins text = front ++ back ∧ ∀ c ∈ front ++ back, isBlank c = true := by
  refine ⟨text.toList.takeWhile isBlank,
    ((text.toList.dropWhile isBlank).reverse.takeWhile isBlank).reverse, ?_, rfl, ?_⟩
  · have hinner : (trim text).toList ++
        ((text.toList.dropWhile isBlank).reverse.takeWhile isBlank).reverse =
          text.toList.dropWhile isBlank := by
      rw [trim, String.toList_ofList, trimChars, trimEndChars, ← List.reverse_append,
        List.takeWhile_append_dropWhile, List.reverse_reverse]
    rw [hinner, List.takeWhile_append_dropWhile]
  · intro c hc
    rcases List.mem_append.mp hc with hc | hc
    · exact List.mem_takeWhile_imp hc
    · exact List.mem_takeWhile_imp (List.mem_reverse.mp hc)

theorem Text.toNat_of_isBlank {c : Char} (hc : isBlank c = true) :
    c.toNat ≤ 0x20 ∨ 0x85 ≤ c.toNat := by
  simp only [isBlank, blankRanges, List.any_cons, List.any_nil, Bool.or_eq_true, Bool.and_eq_true,
    decide_eq_true_eq, Bool.false_eq_true, or_false] at hc
  omega

namespace Json

theorem isDigit_of_isBlank {c : Char} (hc : Text.isBlank c = true) : c.isDigit = false := by
  have hcode := Text.toNat_of_isBlank hc
  by_contra hdigit
  simp only [Bool.not_eq_false, Char.isDigit, Bool.and_eq_true, decide_eq_true_eq] at hdigit
  obtain ⟨hzero, hnine⟩ := hdigit
  have hzero : 48 ≤ c.toNat := hzero
  have hnine : c.toNat ≤ 57 := hnine
  omega

theorem digitValue?_of_isBlank {c : Char} (hc : Text.isBlank c = true) :
    Number.digitValue? 16 c = none := by
  have hcode := Text.toNat_of_isBlank hc
  have hout : ∀ first last : Char, 0x20 < first.toNat → last.toNat < 0x85 →
      (decide (first ≤ c) && decide (c ≤ last)) = false := by
    intro first last hfirst hlast
    by_contra hin
    simp only [Bool.not_eq_false, Bool.and_eq_true, decide_eq_true_eq] at hin
    have hge : first.toNat ≤ c.toNat := hin.1
    have hle : c.toNat ≤ last.toNat := hin.2
    omega
  simp [Number.digitValue?, hout '0' '9' (by decide) (by decide),
    hout 'a' 'f' (by decide) (by decide), hout 'A' 'F' (by decide) (by decide)]

/-- Blanks are no hexadecimal digits. -/
theorem not_isBlank_of_codeUnit? {a b c d : Char} {unit : Nat}
    (hunit : codeUnit? a b c d = some unit) :
    ∀ digit ∈ [a, b, c, d], Text.isBlank digit = false := by
  intro digit hdigit
  by_contra hblank
  have hnone := digitValue?_of_isBlank (Bool.not_eq_false _ ▸ hblank)
  simp only [List.mem_cons, List.not_mem_nil, or_false] at hdigit
  rcases hdigit with rfl | rfl | rfl | rfl <;> simp [codeUnit?, Number.ofDigits?, hnone] at hunit

/-- Characters that begin with a blank, or none at all. -/
def StartsBlank (more : List Char) : Prop :=
  ∀ c ∈ more.head?, Text.isBlank c = true

variable {chars rest after left more : List Char} {text name : Option String}
  {json item value : Json} {items : List Json} {members : List (Option String × Json)}

/-! ### Strings -/

/-- What stands at the front and holds no blank ends before the blanks. -/
theorem isPrefix_of_filled {taken : List Char} (hmore : StartsBlank more)
    (htaken : taken <+: chars ++ more) (hfilled : ∀ c ∈ taken, Text.isBlank c = false) :
    taken <+: chars := by
  rcases List.prefix_or_prefix_of_prefix htaken (List.prefix_append chars more) with hless | hbeyond
  · exact hless
  · obtain ⟨beyond, rfl⟩ := hbeyond
    cases beyond with
    | nil => simp
    | cons c others =>
        obtain ⟨behind, rfl⟩ := (List.prefix_append_right_inj chars).mp htaken
        have hblank := hmore c rfl
        rw [hfilled c (by simp)] at hblank
        nomatch hblank

theorem takeLowHalf?_eq_some_iff {unit : Nat} :
    takeLowHalf? chars = some (unit, rest) ↔
      ∃ a b c d, chars = ['\\', 'u', a, b, c, d] ++ rest ∧ codeUnit? a b c d = some unit ∧
        isLowSurrogate unit = true := by
  unfold takeLowHalf?
  split
  · rename_i a b c d behind
    simp only [Option.bind_eq_bind, Option.bind_eq_some_iff, Option.ite_none_right_eq_some,
      Option.pure_def, Option.some.injEq, Prod.mk.injEq]
    constructor
    · rintro ⟨_, hunit, hlow, rfl, rfl⟩
      exact ⟨a, b, c, d, rfl, hunit, hlow⟩
    · rintro ⟨_, _, _, _, hchars, hunit, hlow⟩
      cases hchars
      exact ⟨_, hunit, hlow, rfl, rfl⟩
  · rename_i hother
    simp only [reduceCtorEq, false_iff]
    rintro ⟨a, b, c, d, hchars, -⟩
    exact hother a b c d rest hchars

theorem takeLowHalf?_append (hmore : StartsBlank more) (chars : List Char) :
    takeLowHalf? (chars ++ more) =
      (takeLowHalf? chars).map fun (unit, after) => (unit, after ++ more) := by
  cases hless : takeLowHalf? chars with
  | some found =>
      obtain ⟨a, b, c, d, rfl, hunit, hlow⟩ := takeLowHalf?_eq_some_iff.mp hless
      exact takeLowHalf?_eq_some_iff.mpr ⟨a, b, c, d, by simp, hunit, hlow⟩
  | none =>
      refine Option.eq_none_iff_forall_ne_some.mpr fun found hfound => ?_
      obtain ⟨a, b, c, d, hchars, hunit, hlow⟩ := takeLowHalf?_eq_some_iff.mp hfound
      have hfilled : ∀ letter ∈ ['\\', 'u', a, b, c, d], Text.isBlank letter = false :=
        List.forall_mem_cons.mpr ⟨by decide, List.forall_mem_cons.mpr
          ⟨by decide, not_isBlank_of_codeUnit? hunit⟩⟩
      obtain ⟨behind, rfl⟩ := isPrefix_of_filled hmore ⟨_, hchars.symm⟩ hfilled
      rw [takeLowHalf?_eq_some_iff.mpr ⟨a, b, c, d, rfl, hunit, hlow⟩] at hless
      nomatch hless

theorem takeEscape_append (hmore : StartsBlank more) {c : Option Char}
    (htaken : Yields (takeEscape chars) c rest) :
    Yields (takeEscape (chars ++ more)) c (rest ++ more) := by
  obtain ⟨shorter, htaken⟩ := htaken
  refine ⟨by simpa using shorter, ?_⟩
  unfold takeEscape at htaken
  split at htaken
  · rename_i a b c d after
    obtain ⟨unit, hunit, htaken⟩ := Option.bind_eq_some_iff.mp htaken
    simp only [List.cons_append, takeEscape, hunit, Option.bind_eq_bind, Option.bind_some]
    have hlow := takeLowHalf?_append hmore after
    split at htaken
    · rename_i hhigh
      rw [if_pos hhigh]
      split at htaken
      · rename_i low behind hpair
        cases htaken
        rw [hpair] at hlow
        split
        · rename_i hpair'
          cases hlow.symm.trans hpair'
          rfl
        · rename_i hnone
          cases hlow.symm.trans hnone
      · rename_i hnone
        cases htaken
        rw [hnone] at hlow
        split
        · rename_i hpair
          cases hlow.symm.trans hpair
        · rfl
    · rename_i hhigh
      rw [if_neg hhigh]
      cases htaken
      rfl
  · rename_i letter after hunicode
    obtain ⟨c, hshort, htaken⟩ := Option.bind_eq_some_iff.mp htaken
    cases htaken
    have hu : letter ≠ 'u' := by
      rintro rfl
      cases hshort
    exact (takeEscape_short hu hshort).2
  · cases htaken

theorem takeStringRest_append {bound bound' : Nat} (hmore : StartsBlank more)
    {within : chars.length ≤ bound} {value : Option String}
    (htaken : Yields (takeStringRest text chars within) value rest)
    (within' : (chars ++ more).length ≤ bound') :
    Yields (takeStringRest text (chars ++ more) within') value (rest ++ more) := by
  induction text, chars, within using takeStringRest.induct with
  | case1 text within =>
      obtain ⟨_, htaken⟩ := htaken
      rw [takeStringRest] at htaken
      cases htaken
  | case2 text behind =>
      obtain ⟨_, htaken⟩ := htaken
      rw [takeStringRest, if_pos rfl] at htaken
      cases htaken
      refine ⟨by simp at within'; simp; omega, ?_⟩
      simp only [List.cons_append]
      rw [takeStringRest, if_pos rfl]
  | case3 text behind hnone =>
      obtain ⟨_, htaken⟩ := htaken
      rw [takeStringRest] at htaken
      simp [hnone] at htaken
  | case4 text behind escaped hescaped _ hquote _ ih =>
      obtain ⟨_, htaken⟩ := htaken
      rw [takeStringRest, if_neg hquote, if_pos rfl] at htaken
      simp only [hescaped] at htaken
      obtain ⟨_, hescaped'⟩ := takeEscape_append hmore ⟨escaped.shorter, hescaped⟩
      simp only [List.cons_append] at within' ⊢
      rw [takeStringRest, if_neg hquote, if_pos rfl]
      simp only [hescaped']
      exact ih ⟨_, htaken⟩ _
  | case5 text c behind _ hquote hbackslash hcontrol =>
      obtain ⟨_, htaken⟩ := htaken
      rw [takeStringRest, if_neg hquote, if_neg hbackslash, if_pos hcontrol] at htaken
      cases htaken
  | case6 text c behind _ hquote hbackslash hcontrol _ ih =>
      obtain ⟨_, htaken⟩ := htaken
      rw [takeStringRest, if_neg hquote, if_neg hbackslash, if_neg hcontrol] at htaken
      simp only [List.cons_append] at within' ⊢
      rw [takeStringRest, if_neg hquote, if_neg hbackslash, if_neg hcontrol]
      exact ih ⟨_, htaken⟩ _

/-! ### Numbers -/

theorem digitRun_append_blank (hmore : StartsBlank more) (chars : List Char) :
    digitRun (chars ++ more) = digitRun chars := by
  have hnone : more.takeWhile Char.isDigit = [] := by
    cases more with
    | nil => rfl
    | cons c others => simp [isDigit_of_isBlank (hmore c rfl)]
  unfold digitRun
  rw [List.takeWhile_append, hnone, List.append_nil]
  split_ifs with hall
  · exact ((List.takeWhile_prefix _).eq_of_length hall).symm
  · rfl

theorem takeWhole?_append (hmore : StartsBlank more) (chars : List Char) :
    takeWhole? (chars ++ more) = takeWhole? chars := by
  simp only [takeWhole?, digitRun_append_blank hmore]

theorem takeFraction?_append (hmore : StartsBlank more) (chars : List Char) :
    takeFraction? (chars ++ more) = takeFraction? chars := by
  cases chars with
  | nil =>
      cases more with
      | nil => rfl
      | cons c others =>
          have hpoint : c ≠ '.' := by
            rintro rfl
            exact absurd (hmore _ rfl) (by decide)
          simp [takeFraction?, hpoint]
  | cons c others =>
      by_cases hpoint : c = '.'
      · subst hpoint
        simp only [List.cons_append, takeFraction?, digitRun_append_blank hmore]
      · simp [takeFraction?, hpoint]

/-- The sign at the front of an exponent's digits. -/
def exponentSign : List Char → List Char
  | '+' :: _ => ['+']
  | '-' :: _ => ['-']
  | _ => []

theorem takeExponent?_cons (letter : Char) (chars : List Char) :
    takeExponent? (letter :: chars) =
      if letter = 'e' || letter = 'E' then
        match digitRun (chars.drop (exponentSign chars).length) with
        | [] => none
        | digits => some (letter :: (exponentSign chars ++ digits))
      else some [] :=
  rfl

theorem exponentSign_isPrefix (chars : List Char) : exponentSign chars <+: chars := by
  unfold exponentSign
  split
  · exact List.prefix_append ['+'] _
  · exact List.prefix_append ['-'] _
  · exact List.nil_prefix

theorem exponentSign_append (hmore : StartsBlank more) (chars : List Char) :
    exponentSign (chars ++ more) = exponentSign chars := by
  cases chars with
  | cons c others =>
      by_cases hplus : c = '+'
      · simp [exponentSign, hplus]
      · by_cases hminus : c = '-' <;> simp [exponentSign, hplus, hminus]
  | nil =>
      cases more with
      | nil => rfl
      | cons c others =>
          have hc := hmore c rfl
          have hplus : c ≠ '+' := by
            rintro rfl
            exact absurd hc (by decide)
          have hminus : c ≠ '-' := by
            rintro rfl
            exact absurd hc (by decide)
          simp [exponentSign, hplus, hminus]

theorem takeExponent?_append (hmore : StartsBlank more) (chars : List Char) :
    takeExponent? (chars ++ more) = takeExponent? chars := by
  cases chars with
  | nil =>
      cases more with
      | nil => rfl
      | cons c others =>
          rw [List.nil_append, takeExponent?_cons, if_neg]
          · rfl
          · simp only [Bool.or_eq_true, decide_eq_true_eq, not_or]
            constructor
            all_goals
              rintro rfl
              exact absurd (hmore _ rfl) (by decide)
  | cons letter behind =>
      rw [List.cons_append, takeExponent?_cons, takeExponent?_cons, exponentSign_append hmore,
        List.drop_append_of_le_length (exponentSign_isPrefix behind).length_le,
        digitRun_append_blank hmore]

theorem takeWhole?_isPrefix {whole : List Char} (htaken : takeWhole? chars = some whole) :
    whole <+: chars := by
  have hrun : digitRun chars <+: chars := List.takeWhile_prefix _
  unfold takeWhole? at htaken
  split at htaken
  · nomatch htaken
  · nomatch htaken
  · rename_i digits _ _
    obtain rfl := Option.some.inj htaken
    exact hrun

theorem takeFraction?_isPrefix {fraction : List Char}
    (htaken : takeFraction? chars = some fraction) : fraction <+: chars := by
  unfold takeFraction? at htaken
  split at htaken
  · rename_i behind
    have hrun : digitRun behind <+: behind := List.takeWhile_prefix _
    split at htaken
    · nomatch htaken
    · obtain rfl := Option.some.inj htaken
      exact List.cons_prefix_cons.mpr ⟨rfl, hrun⟩
  · obtain rfl := Option.some.inj htaken
    exact List.nil_prefix

theorem takeExponent?_isPrefix {exponent : List Char}
    (htaken : takeExponent? chars = some exponent) : exponent <+: chars := by
  cases chars with
  | nil =>
      obtain rfl := Option.some.inj htaken
      exact List.nil_prefix
  | cons letter behind =>
      rw [takeExponent?_cons] at htaken
      split_ifs at htaken
      · obtain ⟨unsigned, hbehind⟩ := exponentSign_isPrefix behind
        have hdrop : behind.drop (exponentSign behind).length = unsigned := by
          have hdrop := @List.drop_left _ (exponentSign behind) unsigned
          rwa [hbehind] at hdrop
        have hrun : digitRun unsigned <+: unsigned := List.takeWhile_prefix _
        rw [hdrop] at htaken
        split at htaken
        · nomatch htaken
        · obtain rfl := Option.some.inj htaken
          rw [List.cons_prefix_cons]
          refine ⟨rfl, ?_⟩
          nth_rewrite 2 [← hbehind]
          exact (List.prefix_append_right_inj _).mpr hrun
      · obtain rfl := Option.some.inj htaken
        exact List.nil_prefix

theorem sign_isPrefix (chars : List Char) :
    (if chars.head? = some '-' then ['-'] else []) <+: chars := by
  split_ifs with hminus
  · obtain ⟨behind, rfl⟩ := List.head?_eq_some_iff.mp hminus
    exact List.prefix_append ['-'] behind
  · exact List.nil_prefix

/-- The parts of a number stand one behind the other. -/
theorem takeNumber?_isPrefix {number : List Char} (htaken : takeNumber? chars = some number) :
    number <+: chars := by
  have hsign := sign_isPrefix chars
  unfold takeNumber? at htaken
  dsimp only at htaken
  generalize (if chars.head? = some '-' then ['-'] else []) = sign at hsign htaken
  obtain ⟨unsigned, rfl⟩ := hsign
  rw [List.drop_left] at htaken
  obtain ⟨whole, hwhole, htaken⟩ := Option.bind_eq_some_iff.mp htaken
  obtain ⟨afterWhole, rfl⟩ := takeWhole?_isPrefix hwhole
  rw [List.drop_left] at htaken
  obtain ⟨fraction, hfraction, htaken⟩ := Option.bind_eq_some_iff.mp htaken
  obtain ⟨behind, rfl⟩ := takeFraction?_isPrefix hfraction
  rw [List.drop_left] at htaken
  obtain ⟨exponent, hexponent, htaken⟩ := Option.bind_eq_some_iff.mp htaken
  cases htaken
  obtain ⟨rest, rfl⟩ := takeExponent?_isPrefix hexponent
  exact ⟨rest, by simp⟩

theorem takeNumber?_append (hmore : StartsBlank more) (hchars : chars ≠ []) :
    takeNumber? (chars ++ more) = takeNumber? chars := by
  have hsign := sign_isPrefix chars
  unfold takeNumber?
  rw [List.head?_append_of_ne_nil _ hchars]
  dsimp only
  generalize (if chars.head? = some '-' then ['-'] else []) = sign at hsign ⊢
  obtain ⟨unsigned, rfl⟩ := hsign
  rw [List.append_assoc, List.drop_left, List.drop_left, takeWhole?_append hmore]
  cases hwhole : takeWhole? unsigned with
  | none => rfl
  | some whole =>
      obtain ⟨afterWhole, rfl⟩ := takeWhole?_isPrefix hwhole
      simp only [Option.bind_eq_bind, Option.bind_some, List.append_assoc, List.drop_left]
      rw [takeFraction?_append hmore]
      cases hfraction : takeFraction? afterWhole with
      | none => rfl
      | some fraction =>
          obtain ⟨behind, rfl⟩ := takeFraction?_isPrefix hfraction
          simp only [Option.bind_some, List.append_assoc, List.drop_left,
            takeExponent?_append hmore]

theorem takeNumeral_append (hmore : StartsBlank more)
    (htaken : Yields (takeNumeral chars) json rest) :
    Yields (takeNumeral (chars ++ more)) json (rest ++ more) := by
  obtain ⟨shorter, htaken⟩ := htaken
  refine ⟨by simpa using shorter, ?_⟩
  unfold takeNumeral at htaken
  split at htaken
  · nomatch htaken
  · rename_i number hnumber
    split_ifs at htaken with hsome
    cases htaken
    have hdrop : (chars ++ more).drop number.length = chars.drop number.length ++ more :=
      List.drop_append_of_le_length (takeNumber?_isPrefix hnumber).length_le
    simp [takeNumeral, takeNumber?_append hmore hsome.2, hnumber, hsome, hdrop]

theorem takeWord_append {word : List Char}
    (htaken : Yields (takeWord word value chars) json rest) :
    Yields (takeWord word value (chars ++ more)) json (rest ++ more) := by
  obtain ⟨shorter, htaken⟩ := htaken
  refine ⟨by simpa using shorter, ?_⟩
  unfold takeWord at htaken
  split_ifs at htaken with hword
  cases htaken
  obtain ⟨behind, rfl⟩ := List.isPrefixOf_iff_prefix.mp hword.2
  simp [takeWord, hword.1]

/-! ### What a reader has read -/

theorem takeFirstItem_cases (htaken : Yields (takeFirstItem chars) items rest) :
    (skipSpaces chars = ']' :: rest ∧ items = []) ∨
      (∀ behind, skipSpaces chars ≠ ']' :: behind) ∧ Yields (takeItems chars) items rest := by
  obtain ⟨shorter, htaken⟩ := htaken
  rw [takeFirstItem] at htaken
  split at htaken
  · rename_i behind hclose
    cases htaken
    exact .inl ⟨hclose, rfl⟩
  · rename_i hopen
    exact .inr ⟨hopen, shorter, htaken⟩

theorem takeItems_cases (htaken : Yields (takeItems chars) items left) :
    ∃ item others after, items = item :: others ∧
      Yields (takeValue (skipSpaces chars)) item after ∧
      ((skipSpaces after = ']' :: left ∧ others = []) ∨
        ∃ rest, skipSpaces after = ',' :: rest ∧ Yields (takeItems rest) others left) := by
  obtain ⟨shorter, htaken⟩ := htaken
  rw [takeItems] at htaken
  obtain ⟨⟨item, after, hafter⟩, hitem, htaken⟩ := Option.bind_eq_some_iff.mp htaken
  dsimp only at htaken
  split at htaken
  · rename_i hclose
    cases htaken
    exact ⟨item, [], after, rfl, ⟨hafter, hitem⟩, .inl ⟨hclose, rfl⟩⟩
  · rename_i rest hcomma
    obtain ⟨⟨others, left, hless⟩, hothers, htaken⟩ := Option.bind_eq_some_iff.mp htaken
    cases htaken
    exact ⟨item, others, after, rfl, ⟨hafter, hitem⟩, .inr ⟨rest, hcomma, hless, hothers⟩⟩
  · nomatch htaken

theorem takeFirstMember_cases (htaken : Yields (takeFirstMember chars) members rest) :
    (skipSpaces chars = '\x7d' :: rest ∧ members = []) ∨
      (∀ behind, skipSpaces chars ≠ '\x7d' :: behind) ∧
        Yields (takeMembers chars) members rest := by
  obtain ⟨shorter, htaken⟩ := htaken
  rw [takeFirstMember] at htaken
  split at htaken
  · rename_i behind hclose
    cases htaken
    exact .inl ⟨hclose, rfl⟩
  · rename_i hopen
    exact .inr ⟨hopen, shorter, htaken⟩

theorem takeMembers_cases (htaken : Yields (takeMembers chars) members left) :
    ∃ name value others after, members = (name, value) :: others ∧
      MemberAt chars name value after ∧
      ((skipSpaces after = '\x7d' :: left ∧ others = []) ∨
        ∃ rest, skipSpaces after = ',' :: rest ∧ Yields (takeMembers rest) others left) := by
  obtain ⟨shorter, htaken⟩ := htaken
  rw [takeMembers] at htaken
  split at htaken
  · rename_i quoted hquoted
    obtain ⟨⟨name, nameRest, hnameRest⟩, hname, htaken⟩ := Option.bind_eq_some_iff.mp htaken
    dsimp only at htaken
    split at htaken
    · rename_i afterColon hcolon
      obtain ⟨⟨value, after, hafter⟩, hvalue, htaken⟩ := Option.bind_eq_some_iff.mp htaken
      have hmember : MemberAt chars name value after :=
        ⟨quoted, nameRest, afterColon, hquoted, ⟨hnameRest, hname⟩, hcolon, hafter, hvalue⟩
      dsimp only at htaken
      split at htaken
      · rename_i hclose
        cases htaken
        exact ⟨name, value, [], after, rfl, hmember, .inl ⟨hclose, rfl⟩⟩
      · rename_i rest hcomma
        obtain ⟨⟨others, left, hless⟩, hothers, htaken⟩ := Option.bind_eq_some_iff.mp htaken
        cases htaken
        exact ⟨name, value, others, after, rfl, hmember, .inr ⟨rest, hcomma, hless, hothers⟩⟩
      · cases htaken
    · cases htaken
  · cases htaken

theorem takeValue_cases (htaken : Yields (takeValue chars) json rest) :
    (∃ behind text, chars = '"' :: behind ∧ json = .string text ∧
        Yields (takeString behind) text rest) ∨
      (∃ behind items, chars = '[' :: behind ∧ json = .array items ∧
        Yields (takeFirstItem behind) items rest) ∨
      (∃ behind members, chars = '\x7b' :: behind ∧ json = .object members ∧
        Yields (takeFirstMember behind) members rest) ∨
      (∃ word value, Yields (takeWord word value chars) json rest ∧
        ∀ more, takeValue (chars ++ more) = takeWord word value (chars ++ more)) ∨
      Yields (takeNumeral chars) json rest ∧
        ∀ more, takeValue (chars ++ more) = takeNumeral (chars ++ more) := by
  obtain ⟨shorter, htaken⟩ := htaken
  rw [takeValue.eq_def] at htaken
  split at htaken
  · rename_i behind
    obtain ⟨⟨text, rest, hless⟩, htext, htaken⟩ := Option.bind_eq_some_iff.mp htaken
    cases htaken
    exact .inl ⟨behind, text, rfl, rfl, hless, htext⟩
  · rename_i behind
    obtain ⟨⟨items, rest, hless⟩, hitems, htaken⟩ := Option.bind_eq_some_iff.mp htaken
    cases htaken
    exact .inr (.inl ⟨behind, items, rfl, rfl, hless, hitems⟩)
  · rename_i behind
    obtain ⟨⟨members, rest, hless⟩, hmembers, htaken⟩ := Option.bind_eq_some_iff.mp htaken
    cases htaken
    exact .inr (.inr (.inl ⟨behind, members, rfl, rfl, hless, hmembers⟩))
  · exact .inr (.inr (.inr (.inl ⟨_, _, ⟨shorter, htaken⟩, fun more => by
      rw [List.cons_append, takeValue]⟩)))
  · exact .inr (.inr (.inr (.inl ⟨_, _, ⟨shorter, htaken⟩, fun more => by
      rw [List.cons_append, takeValue]⟩)))
  · exact .inr (.inr (.inr (.inl ⟨_, _, ⟨shorter, htaken⟩, fun more => by
      rw [List.cons_append, takeValue]⟩)))
  · rename_i hquote hbracket hbrace hn ht hf
    refine .inr (.inr (.inr (.inr ⟨⟨shorter, htaken⟩, fun more => ?_⟩)))
    cases chars with
    | nil => simp [takeNumeral, takeNumber?, takeWhole?, digitRun] at htaken
    | cons c behind =>
        rw [List.cons_append, takeValue]
        all_goals
          rintro others heq
          obtain ⟨rfl, -⟩ := List.cons.inj heq
        · exact hquote behind rfl
        · exact hbracket behind rfl
        · exact hbrace behind rfl
        · exact hn behind rfl
        · exact ht behind rfl
        · exact hf behind rfl

/-! ### Blanks behind a value -/

theorem skipSpaces_append (hsome : skipSpaces chars ≠ []) (more : List Char) :
    skipSpaces (chars ++ more) = skipSpaces chars ++ more := by
  unfold skipSpaces at hsome ⊢
  simp [List.dropWhile_append, hsome]

theorem length_lt_of_skipSpaces {c : Char} (hfront : skipSpaces chars = c :: rest) :
    rest.length < chars.length := by
  have hlength := length_skipSpaces_le chars
  rwa [hfront] at hlength

theorem skipSpaces_append_cons {c : Char} (hfront : skipSpaces chars = c :: rest)
    (more : List Char) : skipSpaces (chars ++ more) = c :: (rest ++ more) := by
  rw [skipSpaces_append (hfront ▸ List.cons_ne_nil c rest), hfront, List.cons_append]

theorem skipSpaces_append_ne {mark : Char} (hsome : skipSpaces chars ≠ [])
    (hfront : ∀ behind, skipSpaces chars ≠ mark :: behind) (more : List Char) :
    ∀ behind, skipSpaces (chars ++ more) ≠ mark :: behind := by
  rw [skipSpaces_append hsome]
  cases hskipped : skipSpaces chars with
  | nil => exact absurd hskipped hsome
  | cons c others =>
      rintro behind heq
      exact hfront others (hskipped.trans (by rw [(List.cons.inj heq).1]))

/-- A value is read from something. -/
theorem Yields.ne_nil {α : Type} {chars : List Char} {taken : Option (Taken α chars.length)}
    {value : α} (htaken : Yields taken value rest) : chars ≠ [] :=
  List.ne_nil_of_length_pos (Nat.zero_lt_of_lt htaken.1)

theorem MemberAt.skipSpaces_ne_nil (hmember : MemberAt chars name value after) :
    skipSpaces chars ≠ [] := by
  obtain ⟨quoted, -, -, hquoted, -⟩ := hmember
  rw [hquoted]
  exact List.cons_ne_nil _ _

mutual

/-- Blanks behind a value are left over. -/
theorem takeValue_append (hmore : StartsBlank more) {chars rest : List Char} {json : Json}
    (htaken : Yields (takeValue chars) json rest) :
    Yields (takeValue (chars ++ more)) json (rest ++ more) := by
  rcases takeValue_cases htaken with ⟨behind, text, rfl, rfl, htext⟩ |
    ⟨behind, items, rfl, rfl, hitems⟩ | ⟨behind, members, rfl, rfl, hmembers⟩ |
    ⟨word, value, hword, heq⟩ | ⟨hnumeral, heq⟩
  · exact takeValue_string (takeStringRest_append hmore htext _)
  · refine takeValue_array ?_
    rcases takeFirstItem_cases hitems with ⟨hclose, rfl⟩ | ⟨hopen, hitems⟩
    · exact takeFirstItem_close (skipSpaces_append_cons hclose more)
    · obtain ⟨_, _, _, -, hitem, -⟩ := takeItems_cases hitems
      exact takeFirstItem_items (skipSpaces_append_ne hitem.ne_nil hopen more)
        (takeItems_append hmore hitems)
  · refine takeValue_object ?_
    rcases takeFirstMember_cases hmembers with ⟨hclose, rfl⟩ | ⟨hopen, hmembers⟩
    · exact takeFirstMember_close (skipSpaces_append_cons hclose more)
    · obtain ⟨_, _, _, _, -, hmember, -⟩ := takeMembers_cases hmembers
      exact takeFirstMember_members (skipSpaces_append_ne hmember.skipSpaces_ne_nil hopen more)
        (takeMembers_append hmore hmembers)
  · rw [heq]
    exact takeWord_append hword
  · rw [heq]
    exact takeNumeral_append hmore hnumeral
termination_by (chars.length, 0)

theorem takeItems_append (hmore : StartsBlank more) {chars rest : List Char} {items : List Json}
    (htaken : Yields (takeItems chars) items rest) :
    Yields (takeItems (chars ++ more)) items (rest ++ more) := by
  obtain ⟨item, others, after, rfl, hitem, hothers⟩ := takeItems_cases htaken
  have hless : after.length < chars.length :=
    Nat.lt_of_lt_of_le hitem.1 (length_skipSpaces_le chars)
  have htaken : Yields (takeValue (skipSpaces (chars ++ more))) item (after ++ more) := by
    rw [skipSpaces_append hitem.ne_nil]
    exact takeValue_append hmore hitem
  refine takeItems_cons htaken ?_
  rcases hothers with ⟨hclose, rfl⟩ | ⟨behind, hcomma, hothers⟩
  · exact .inl ⟨skipSpaces_append_cons hclose more, rfl⟩
  · have hbehind := Nat.lt_trans (length_lt_of_skipSpaces hcomma) hless
    exact .inr ⟨_, skipSpaces_append_cons hcomma more, takeItems_append hmore hothers⟩
termination_by (chars.length, 1)
decreasing_by
  · exact Prod.Lex.right' _ (length_skipSpaces_le chars) Nat.zero_lt_one
  · exact Prod.Lex.left _ _ hbehind

theorem takeMembers_append (hmore : StartsBlank more) {chars rest : List Char}
    {members : List (Option String × Json)} (htaken : Yields (takeMembers chars) members rest) :
    Yields (takeMembers (chars ++ more)) members (rest ++ more) := by
  obtain ⟨name, value, others, after, rfl, hmember, hothers⟩ := takeMembers_cases htaken
  have hless := hmember.length_lt
  have htaken : MemberAt (chars ++ more) name value (after ++ more) := by
    obtain ⟨quoted, nameRest, afterColon, hquoted, hname, hcolon, hvalue⟩ := hmember
    refine ⟨quoted ++ more, nameRest ++ more, afterColon ++ more,
      skipSpaces_append_cons hquoted more, takeStringRest_append hmore hname _,
      skipSpaces_append_cons hcolon more, ?_⟩
    have hlength := length_value_lt hquoted hname hcolon
    rw [skipSpaces_append hvalue.ne_nil]
    exact takeValue_append hmore hvalue
  refine takeMembers_cons htaken ?_
  rcases hothers with ⟨hclose, rfl⟩ | ⟨behind, hcomma, hothers⟩
  · exact .inl ⟨skipSpaces_append_cons hclose more, rfl⟩
  · have hbehind := Nat.lt_trans (length_lt_of_skipSpaces hcomma) hless
    exact .inr ⟨_, skipSpaces_append_cons hcomma more, takeMembers_append hmore hothers⟩
termination_by (chars.length, 1)

end

/-! ### Blanks on both sides -/

/-- No value begins with a blank. -/
theorem takeValue_blank {c : Char} (hc : Text.isBlank c = true) (chars : List Char) :
    takeValue (c :: chars) = none := by
  have hother : ∀ letter : Char, Text.isBlank letter = false → c ≠ letter := by
    rintro letter hletter rfl
    rw [hletter] at hc
    nomatch hc
  have hminus : c ≠ '-' := hother '-' (by decide)
  rw [takeValue]
  · simp [takeNumeral, takeNumber?, takeWhole?, digitRun, hminus, isDigit_of_isBlank hc]
  all_goals
    rintro others heq
    obtain ⟨rfl, -⟩ := List.cons.inj heq
    exact absurd hc (by decide)

theorem skipSpaces_append_of_all {front : List Char} (hfront : ∀ c ∈ front, isSpace c = true)
    (chars : List Char) : skipSpaces (front ++ chars) = skipSpaces chars :=
  List.dropWhile_append_of_pos hfront

theorem skipSpaces_eq_nil_iff : skipSpaces chars = [] ↔ ∀ c ∈ chars, isSpace c = true :=
  List.dropWhile_eq_nil_iff

/-- Nothing is read behind a blank that is none of JSON. -/
theorem takeValue_skipSpaces_of_blank {front : List Char}
    (hblank : ∀ c ∈ front, Text.isBlank c = true) (hforeign : ∃ c ∈ front, isSpace c = false)
    (chars : List Char) : takeValue (skipSpaces (front ++ chars)) = none := by
  have hsome : skipSpaces front ≠ [] := by
    rw [ne_eq, skipSpaces_eq_nil_iff]
    simpa using hforeign
  rw [skipSpaces_append hsome]
  cases hskipped : skipSpaces front with
  | nil => exact absurd hskipped hsome
  | cons c others =>
      have hmem : c ∈ front := (List.dropWhile_suffix isSpace).subset
        (show c ∈ skipSpaces front from hskipped ▸ List.mem_cons_self)
      exact takeValue_blank (hblank c hmem) _

theorem read?_eq_some_iff {text : String} :
    read? text = some json ↔ ∃ rest, Yields (takeValue (skipSpaces text.toList)) json rest ∧
      ∀ c ∈ rest, isSpace c = true := by
  simp only [read?, Option.bind_eq_bind, Option.bind_eq_some_iff, Option.ite_none_right_eq_some,
    skipSpaces_eq_nil_iff, Option.pure_def, Option.some.injEq]
  constructor
  · rintro ⟨⟨value, rest, shorter⟩, htaken, hrest, rfl⟩
    exact ⟨rest, ⟨shorter, htaken⟩, hrest⟩
  · rintro ⟨rest, ⟨shorter, htaken⟩, hrest⟩
    exact ⟨⟨json, rest, shorter⟩, htaken, hrest, rfl⟩

theorem Yields.unique {α : Type} {bound : Nat} {taken : Option (Taken α bound)}
    {value other : α} {rest behind : List Char} (htaken : Yields taken value rest)
    (hother : Yields taken other behind) : value = other ∧ rest = behind := by
  obtain ⟨_, rfl⟩ := htaken
  obtain ⟨_, hsome⟩ := hother
  cases hsome
  exact ⟨rfl, rfl⟩

/-- A value that stands between blanks is read if these are blanks of JSON. -/
theorem read?_between {text : String} {front core back : List Char}
    [Decidable (∀ c ∈ front ++ back, isSpace c = true)]
    (htext : text.toList = front ++ (core ++ back))
    (hfront : ∀ c ∈ front, Text.isBlank c = true) (hback : ∀ c ∈ back, Text.isBlank c = true)
    (hread : read? (String.ofList core) = some json) :
    read? text = if ∀ c ∈ front ++ back, isSpace c = true then some json else none := by
  obtain ⟨rest, htaken, hrest⟩ := read?_eq_some_iff.mp hread
  rw [String.toList_ofList] at htaken
  have hstarts : StartsBlank back := fun c hc => hback c (List.mem_of_mem_head? hc)
  -- what is taken is the value, and what is left over is the blanks behind it
  have hbehind : (∀ c ∈ front, isSpace c = true) →
      Yields (takeValue (skipSpaces text.toList)) json (rest ++ back) := by
    intro hspaces
    have hbehind := takeValue_append hstarts htaken
    rwa [← skipSpaces_append htaken.ne_nil, ← skipSpaces_append_of_all hspaces, ← htext] at hbehind
  split_ifs with hall
  · obtain ⟨hspaces, hbacks⟩ := List.forall_mem_append.mp hall
    exact read?_eq_some_iff.mpr
      ⟨rest ++ back, hbehind hspaces, List.forall_mem_append.mpr ⟨hrest, hbacks⟩⟩
  · refine Option.eq_none_iff_forall_ne_some.mpr fun value hvalue => hall ?_
    obtain ⟨left, hvalue, hleft⟩ := read?_eq_some_iff.mp hvalue
    have hspaces : ∀ c ∈ front, isSpace c = true := by
      by_contra hforeign
      rw [htext] at hvalue
      have hnone := takeValue_skipSpaces_of_blank hfront (by simpa using hforeign) (core ++ back)
      nomatch hnone.symm.trans hvalue.2
    obtain ⟨-, rfl⟩ := hvalue.unique (hbehind hspaces)
    exact List.forall_mem_append.mpr ⟨hspaces, (List.forall_mem_append.mp hleft).2⟩

/-- A value that a trimmed text holds is read from the text itself exactly if only blanks of JSON
were trimmed. -/
theorem read?_of_trim {line : String} [Decidable (∀ c ∈ Text.margins line, isSpace c = true)]
    (hread : read? (Text.trim line) = some json) :
    read? line = if ∀ c ∈ Text.margins line, isSpace c = true then some json else none := by
  obtain ⟨front, back, hline, hmargins, hblank⟩ := Text.exists_margins line
  obtain ⟨hfront, hback⟩ := List.forall_mem_append.mp hblank
  simp only [hmargins]
  exact read?_between hline hfront hback (by rwa [String.ofList_toList])

end Json

end GateBench
