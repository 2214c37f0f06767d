import GateBench.Proofs.LexemePatterns

/-!
The scanner takes the longest match.  At the front of a text, a lexeme is the longest match among
all patterns, and one invalid character only where none matches; of patterns that match alike, a
reserved word wins over a name.
-/

namespace GateBench.Syntax

open Computability

/-! ### Lexemes -/

/-- The number that digits with an exponent write, if the last `places` of them stand behind the
point. -/
def decimalValue (digits : List Char) (places : Nat) (exponent : List Char) : Float :=
  (⟨digitsValue digits, exponentValue exponent - places⟩ : Number.Decimal).toFloat

/-- At the front of `text`, the characters are the lexeme.  A reserved word is no name, and too
large a number is invalid as a whole; any other character is invalid where no pattern matches. -/
inductive IsLexeme (text : List Char) : List Char → Lexeme → Prop where
  | blank {chars} (hmatch : IsLongestMatch text chars .blank) : IsLexeme text chars .blank
  | comment {chars} (hmatch : IsLongestMatch text chars .comment) : IsLexeme text chars .comment
  | keyword {chars word} (hmatch : IsLongestMatch text chars (.keyword word)) :
      IsLexeme text chars (.token (.keyword word))
  | pointed {whole fraction exponent}
      (hmatch : IsLongestMatch text (whole ++ '.' :: (fraction ++ exponent)) .pointed)
      (hdigits : ∀ c ∈ whole ++ fraction, isDigit c) (hexponent : exponent ∈ 1 + exponentForm) :
      IsLexeme text (whole ++ '.' :: (fraction ++ exponent))
        (.token (.decimal (decimalValue (whole ++ fraction) fraction.length exponent)))
  | scientific {whole exponent} (hmatch : IsLongestMatch text (whole ++ exponent) .scientific)
      (hdigits : ∀ c ∈ whole, isDigit c) (hexponent : exponent ∈ exponentForm) :
      IsLexeme text (whole ++ exponent) (.token (.decimal (decimalValue whole 0 exponent)))
  | whole {chars} (hmatch : IsLongestMatch text chars .digits)
      (hvalue : digitsValue chars < 2 ^ 64) :
      IsLexeme text chars (.token (.whole (digitsValue chars)))
  | tooLarge {chars} (hmatch : IsLongestMatch text chars .digits)
      (hvalue : 2 ^ 64 ≤ digitsValue chars) : IsLexeme text chars .invalid
  | name {chars} (hmatch : IsLongestMatch text chars .name)
      (hword : ∀ word, chars ∉ (Pattern.keyword word).form) :
      IsLexeme text chars (.token (.identifier (String.ofList chars)))
  | mark {chars shape} (hmatch : IsLongestMatch text chars (.mark shape)) :
      IsLexeme text chars (.token (.mark shape))
  | unknown {c rest} (htext : text = c :: rest)
      (hnone : ∀ (pattern : Pattern) (others : List Char), others <+: text →
        others ∉ pattern.form) : IsLexeme text [c] .invalid

/-! ### Numbers -/

theorem append_prefix_of_drop {front back chars : List Char} (hfront : front <+: chars)
    (hback : back <+: chars.drop front.length) : front ++ back <+: chars := by
  obtain ⟨rest, rfl⟩ := hfront
  rw [List.drop_left] at hback
  exact (List.prefix_append_right_inj front).mpr hback

theorem exponentPart_isPrefix (chars : List Char) : exponentPart chars <+: chars := by
  unfold exponentPart
  split
  · exact List.prefix_rfl
  · rename_i letter rest
    split
    · dsimp only
      split
      all_goals
        split
        · exact List.nil_prefix
        · simp [List.takeWhile_prefix]
    · exact List.nil_prefix

theorem number_isPrefix (chars : List Char) : (number chars).2 <+: chars := by
  have hwhole : chars.takeWhile isDigit <+: chars := List.takeWhile_prefix _
  unfold number
  dsimp only
  split
  · rename_i rest hrest
    rw [List.append_assoc]
    refine append_prefix_of_drop hwhole ?_
    rw [hrest, List.cons_append, List.cons_prefix_cons]
    exact ⟨rfl, append_prefix_of_drop (List.takeWhile_prefix _) (exponentPart_isPrefix _)⟩
  · split
    · exact hwhole
    · rw [List.append_nil]
      exact append_prefix_of_drop hwhole (exponentPart_isPrefix _)

theorem not_isDigit_of_mem_exponentForm {letter : Char} {rest : List Char}
    (h : letter :: rest ∈ exponentForm) : ¬ isDigit letter := by
  obtain ⟨other, sign, digits, hsplit, hletter, -⟩ := mem_exponentForm.mp h
  obtain ⟨rfl, -⟩ := List.cons.inj hsplit
  rcases hletter with rfl | rfl <;> decide

theorem exponentPart_mem (chars : List Char) : exponentPart chars ∈ 1 + exponentForm := by
  rw [mem_one_add_exponentForm]
  unfold exponentPart
  split
  · exact .inl rfl
  · rename_i letter rest
    split_ifs with hletter
    · have hdigits (behind : List Char) : ∀ c ∈ behind.takeWhile isDigit, isDigit c :=
        fun c hc => List.mem_takeWhile_imp hc
      dsimp only
      split
      all_goals
        split_ifs with hnone
        · exact .inl rfl
        · refine .inr (mem_exponentForm.mpr ⟨letter, _, _, rfl, by simpa using hletter, ?_, hnone,
            hdigits _⟩)
          simp
    · exact .inl rfl

/-- An exponent at the front of a text goes on as far as there are digits. -/
theorem exponentPart_append {letter : Char} {sign digits : List Char} (behind : List Char)
    (hletter : letter = 'e' ∨ letter = 'E') (hsign : sign = [] ∨ sign = ['+'] ∨ sign = ['-'])
    (hsome : digits ≠ []) (hdigits : ∀ c ∈ digits, isDigit c) :
    exponentPart (letter :: (sign ++ digits) ++ behind) =
      letter :: (sign ++ (digits ++ behind.takeWhile isDigit)) := by
  obtain ⟨first, others, rfl⟩ := List.exists_cons_of_ne_nil hsome
  have hfirst : isDigit first := hdigits first List.mem_cons_self
  have hplus : first ≠ '+' := by
    rintro rfl
    exact absurd hfirst (by decide)
  have hminus : first ≠ '-' := by
    rintro rfl
    exact absurd hfirst (by decide)
  have hrun : (others ++ behind).takeWhile isDigit = others ++ behind.takeWhile isDigit :=
    List.takeWhile_append_of_pos fun c hc => hdigits c (List.mem_cons_of_mem first hc)
  have hexponent : (letter = 'e' || letter = 'E') = true := by simpa using hletter
  rw [List.cons_append, List.append_assoc]
  unfold exponentPart
  simp only [hexponent, if_true]
  rcases hsign with rfl | rfl | rfl
  · simp [hfirst, hrun, hplus, hminus]
  · simp [hfirst, hrun]
  · simp [hfirst, hrun]

/-- No exponent at the front of a text is longer. -/
theorem length_le_exponentPart {exponent chars : List Char} (h : exponent ∈ exponentForm)
    (hleads : exponent <+: chars) : exponent.length ≤ (exponentPart chars).length := by
  obtain ⟨letter, sign, digits, rfl, hletter, hsign, hsome, hdigits⟩ := mem_exponentForm.mp h
  obtain ⟨behind, rfl⟩ := hleads
  rw [exponentPart_append behind hletter hsign hsome hdigits]
  simp only [List.length_cons, List.length_append]
  omega

/-- The digits at the front of a text. -/
def digitsAhead (chars : List Char) : List Char :=
  chars.takeWhile isDigit

/-- The text behind the digits at its front. -/
def behindDigits (chars : List Char) : List Char :=
  chars.drop (digitsAhead chars).length

theorem isDigit_of_mem_digitsAhead (chars : List Char) : ∀ c ∈ digitsAhead chars, isDigit c :=
  fun _ hc => List.mem_takeWhile_imp hc

/-- Digits with something else behind them at the front of a text are all the digits there. -/
theorem eq_digitsAhead_of_append {digits back chars : List Char} {c : Char}
    (hdigits : ∀ c ∈ digits, isDigit c) (hc : ¬ isDigit c)
    (hleads : digits ++ c :: back <+: chars) :
    digits = digitsAhead chars ∧ c :: back <+: behindDigits chars := by
  obtain ⟨hsame, hbehind⟩ := eq_takeWhile_of_append hleads hdigits hc
  rw [hsame] at hbehind
  exact ⟨hsame, hbehind⟩

/-- No digits with an exponent, and none without one, are longer at the front of a text. -/
theorem length_le_digits_exponent {digits exponent chars : List Char}
    (hdigits : ∀ c ∈ digits, isDigit c) (hexponent : exponent ∈ 1 + exponentForm)
    (hleads : digits ++ exponent <+: chars) :
    (digits ++ exponent).length ≤ (digitsAhead chars).length +
      (exponentPart (behindDigits chars)).length := by
  cases exponent with
  | nil =>
      rw [List.append_nil] at hleads ⊢
      exact Nat.le_add_right_of_le (length_le_takeWhile hleads hdigits)
  | cons letter rest =>
      have hform : letter :: rest ∈ exponentForm :=
        (mem_one_add_exponentForm.mp hexponent).resolve_left nofun
      obtain ⟨hsame, hbehind⟩ :=
        eq_digitsAhead_of_append hdigits (not_isDigit_of_mem_exponentForm hform) hleads
      rw [List.length_append, hsame]
      exact Nat.add_le_add_left (length_le_exponentPart hform hbehind) _

theorem number_pointed {chars after : List Char} (hbehind : behindDigits chars = '.' :: after) :
    number chars =
      (.token (.decimal (decimalValue (digitsAhead chars ++ digitsAhead after)
        (digitsAhead after).length (exponentPart (behindDigits after)))),
        digitsAhead chars ++ '.' :: (digitsAhead after ++ exponentPart (behindDigits after))) := by
  unfold behindDigits digitsAhead at hbehind
  unfold number
  dsimp only
  rw [hbehind]
  simp [decimalValue, behindDigits, digitsAhead]

theorem number_scientific {chars : List Char} (hpoint : ∀ after, behindDigits chars ≠ '.' :: after)
    (hexponent : exponentPart (behindDigits chars) ≠ []) :
    number chars =
      (.token (.decimal (decimalValue (digitsAhead chars) 0 (exponentPart (behindDigits chars)))),
        digitsAhead chars ++ exponentPart (behindDigits chars)) := by
  unfold number
  dsimp only
  split
  · exact absurd ‹_› (hpoint _)
  · split
    · exact absurd ‹_› hexponent
    · simp [decimalValue, behindDigits, digitsAhead]

theorem number_digits {chars : List Char} (hpoint : ∀ after, behindDigits chars ≠ '.' :: after)
    (hexponent : exponentPart (behindDigits chars) = []) :
    number chars =
      (if digitsValue (digitsAhead chars) < UInt64.size then
        .token (.whole (digitsValue (digitsAhead chars))) else .invalid, digitsAhead chars) := by
  unfold number
  dsimp only
  split
  · exact absurd ‹_› (hpoint _)
  · split
    · rfl
    · exact absurd hexponent ‹_›

/-- A number with a point stands in front of a text only where a point is behind its digits. -/
theorem length_le_of_pointed {others chars : List Char} (h : others ∈ Pattern.pointed.form)
    (hleads : others <+: chars) :
    ∃ after, behindDigits chars = '.' :: after ∧ others.length ≤ (digitsAhead chars).length + 1 +
      ((digitsAhead after).length + (exponentPart (behindDigits after)).length) := by
  obtain ⟨whole, fraction, exponent, rfl, hwhole, hfraction, hexponent⟩ := mem_pointed.mp h
  obtain ⟨hsame, behind, hbehind⟩ :=
    eq_digitsAhead_of_append (mem_someOf.mp hwhole).2 (by decide) hleads
  refine ⟨fraction ++ exponent ++ behind, hbehind.symm, ?_⟩
  have hlength := length_le_digits_exponent hfraction hexponent (List.prefix_append _ behind)
  rw [List.length_append, List.length_cons, hsame]
  omega

/-- The form of a number without a point. -/
theorem length_le_of_unpointed {pattern : Pattern} {others chars : List Char}
    (hpattern : pattern = .digits ∨ pattern = .scientific) (h : others ∈ pattern.form)
    (hleads : others <+: chars) :
    others.length ≤ (digitsAhead chars).length + (exponentPart (behindDigits chars)).length := by
  rcases hpattern with rfl | rfl
  · exact Nat.le_add_right_of_le (length_le_takeWhile hleads (mem_someOf.mp h).2)
  · obtain ⟨digits, hdigits, exponent, hexponent, rfl⟩ := Language.mem_mul.mp h
    exact length_le_digits_exponent (mem_someOf.mp hdigits).2
      (mem_one_add_exponentForm.mpr (.inr hexponent)) hleads

theorem exponentPart_point (after : List Char) : exponentPart ('.' :: after) = [] := by
  simp [exponentPart]

/-- No number at the front of a text is longer than the one that is found. -/
theorem length_le_number {pattern : Pattern} {others chars : List Char}
    (hpattern : pattern = .digits ∨ pattern = .pointed ∨ pattern = .scientific)
    (h : others ∈ pattern.form) (hleads : others <+: chars) :
    others.length ≤ (number chars).2.length := by
  by_cases hpointed : pattern = .pointed
  · rw [hpointed] at h
    obtain ⟨after, hbehind, hlength⟩ := length_le_of_pointed h hleads
    rw [number_pointed hbehind, List.length_append, List.length_cons, List.length_append]
    omega
  · have hlength := length_le_of_unpointed (by tauto) h hleads
    by_cases hpoint : ∃ after, behindDigits chars = '.' :: after
    · obtain ⟨after, hbehind⟩ := hpoint
      rw [hbehind, exponentPart_point] at hlength
      rw [number_pointed hbehind, List.length_append]
      exact Nat.le_add_right_of_le hlength
    · by_cases hexponent : exponentPart (behindDigits chars) = []
      · rw [hexponent] at hlength
        rw [number_digits (not_exists.mp hpoint) hexponent]
        exact hlength
      · rw [number_scientific (not_exists.mp hpoint) hexponent, List.length_append]
        exact hlength

theorem number_isLexeme {c : Char} {rest : List Char} (hc : isDigit c) :
    IsLexeme (c :: rest) (number (c :: rest)).2 (number (c :: rest)).1 := by
  have hlongest (other : Pattern) (others : List Char) (hleads : others <+: c :: rest)
      (hother : others ∈ other.form) : others.length ≤ (number (c :: rest)).2.length :=
    length_le_number ((Pattern.starts_of_prefix hleads hother).number hc) hother hleads
  have hmatch {pattern : Pattern} (hmatched : (number (c :: rest)).2 ∈ pattern.form) :
      IsLongestMatch (c :: rest) (number (c :: rest)).2 pattern :=
    ⟨number_isPrefix _, hmatched, hlongest⟩
  have hwhole : digitsAhead (c :: rest) ∈ someOf isDigit :=
    mem_someOf.mpr ⟨by simp [digitsAhead, hc], isDigit_of_mem_digitsAhead _⟩
  by_cases hpoint : ∃ after, behindDigits (c :: rest) = '.' :: after
  · obtain ⟨after, hbehind⟩ := hpoint
    rw [number_pointed hbehind] at hmatch ⊢
    refine .pointed (hmatch (mem_pointed.mpr ?_)) ?_ (exponentPart_mem _)
    · exact ⟨_, _, _, rfl, hwhole, isDigit_of_mem_digitsAhead _, exponentPart_mem _⟩
    · exact List.forall_mem_append.mpr ⟨isDigit_of_mem_digitsAhead _, isDigit_of_mem_digitsAhead _⟩
  · by_cases hexponent : exponentPart (behindDigits (c :: rest)) = []
    · rw [number_digits (not_exists.mp hpoint) hexponent] at hmatch ⊢
      dsimp only
      split_ifs with hvalue
      · exact .whole (hmatch hwhole) hvalue
      · exact .tooLarge (hmatch hwhole) (Nat.not_lt.mp hvalue)
    · rw [number_scientific (not_exists.mp hpoint) hexponent] at hmatch ⊢
      have hform := (mem_one_add_exponentForm.mp (exponentPart_mem _)).resolve_left hexponent
      exact .scientific (hmatch (Language.append_mem_mul hwhole hform))
        (isDigit_of_mem_digitsAhead _) hform

/-! ### Words -/

theorem isNameChar_of_isNameStart {c : Char} (h : isNameStart c) : isNameChar c := by
  simp [isNameChar, h]

theorem Keyword.isNameChar_text {word : Keyword} (hword : word ≠ .entryMark) :
    ∀ c ∈ word.text.toList, isNameChar c := by
  rw [← List.all_eq_true]
  cases word with
  | entryMark => exact absurd rfl hword
  | _ => rfl

theorem isNameChar_of_mem_name {chars : List Char} (h : chars ∈ Pattern.name.form) :
    ∀ c ∈ chars, isNameChar c := by
  obtain ⟨first, rest, rfl, hfirst, hrest⟩ := mem_oneOf_mul.mp h
  exact List.forall_mem_cons.mpr ⟨isNameChar_of_isNameStart hfirst, mem_oneOf_kstar.mp hrest⟩

/-- Where a name begins, whatever matches is made of the characters of names. -/
theorem isNameChar_of_mem {pattern : Pattern} {c : Char} {others : List Char} (hc : isNameStart c)
    (h : others ∈ pattern.form) (hstarts : pattern.Starts c) : ∀ c ∈ others, isNameChar c := by
  rcases hstarts.word hc with rfl | ⟨word, rfl, hword⟩
  · exact isNameChar_of_mem_name h
  · obtain rfl : others = word.text.toList := h
    exact Keyword.isNameChar_text hword

theorem word_cases (text : String) :
    (∃ keyword : Keyword, word text = .keyword keyword ∧ text = keyword.text) ∨
      word text = .identifier text ∧
        ∀ keyword : Keyword, keyword ≠ .entryMark → text ≠ keyword.text := by
  unfold word
  split
  · rename_i keyword hfound
    have htext : keyword.text = text := by simpa using List.find?_some hfound
    exact .inl ⟨keyword, rfl, htext.symm⟩
  · rename_i hnone
    refine .inr ⟨rfl, fun keyword hkeyword hsame => ?_⟩
    have hlisted : keyword ∈ Keyword.worded := by
      cases keyword with
      | entryMark => exact absurd rfl hkeyword
      | _ => decide
    exact absurd hsame.symm (by simpa using List.find?_eq_none.mp hnone keyword hlisted)

theorem name_isLexeme {c : Char} {rest : List Char} (hc : isNameStart c) :
    IsLexeme (c :: rest) ((c :: rest).takeWhile isNameChar)
      (.token (word (String.ofList ((c :: rest).takeWhile isNameChar)))) := by
  have hmatch {pattern : Pattern} (hmatched : (c :: rest).takeWhile isNameChar ∈ pattern.form) :
      IsLongestMatch (c :: rest) ((c :: rest).takeWhile isNameChar) pattern := by
    refine ⟨List.takeWhile_prefix _, hmatched, fun other others hleads hother => ?_⟩
    have hstarts := Pattern.starts_of_prefix hleads hother
    exact length_le_takeWhile hleads (isNameChar_of_mem hc hother hstarts)
  have hname : (c :: rest).takeWhile isNameChar = c :: rest.takeWhile isNameChar :=
    List.takeWhile_cons_of_pos (isNameChar_of_isNameStart hc)
  rcases word_cases (String.ofList ((c :: rest).takeWhile isNameChar)) with
    ⟨keyword, hword, htext⟩ | ⟨hword, hother⟩
  · rw [hword]
    refine .keyword (hmatch ?_)
    show _ = keyword.text.toList
    rw [← htext, String.toList_ofList]
  · rw [hword]
    refine .name (hmatch ?_) fun keyword hkeyword => ?_
    · rw [hname]
      exact mem_oneOf_mul.mpr ⟨c, _, rfl, hc,
        mem_oneOf_kstar.mpr fun other hmem => List.mem_takeWhile_imp hmem⟩
    · have hstarts := Pattern.starts_of_prefix (List.takeWhile_prefix _) hkeyword
      obtain ⟨_, ⟨⟩, hentry⟩ := (hstarts.word hc).resolve_left nofun
      have hsame : (c :: rest).takeWhile isNameChar = keyword.text.toList := hkeyword
      exact hother keyword hentry (by rw [hsame, String.ofList_toList])

/-! ### Blanks, comments and signs -/

/-- Where neither a comment nor the mark of an entry point stands, a sign matches nothing but the
mark that it spells. -/
theorem eq_mark_of_sign {pattern : Pattern} {c : Char} {rest others : List Char}
    (hsign : IsSign c) (hcomment : ¬ (c = '/' ∧ rest.head? = some '/'))
    (hentry : ¬ Keyword.entryMark.text.toList <+: c :: rest) (hleads : others <+: c :: rest)
    (h : others ∈ pattern.form) : ∃ shape : Mark, c = shape.char ∧ others = [c] := by
  have hstarts := Pattern.starts_of_prefix hleads h
  rcases hstarts.sign hsign with ⟨rfl, rfl⟩ | ⟨rfl, rfl⟩ | ⟨shape, rfl, rfl⟩
  · obtain ⟨text, rfl, -⟩ := mem_comment.mp h
    obtain ⟨behind, rfl⟩ := (List.cons_prefix_cons.mp hleads).2
    exact absurd ⟨rfl, rfl⟩ hcomment
  · obtain rfl : others = Keyword.entryMark.text.toList := h
    exact absurd hleads hentry
  · exact ⟨shape, rfl, h⟩

theorem blank_isLexeme {c : Char} {rest : List Char} (hc : isSpace c) :
    IsLexeme (c :: rest) ((c :: rest).takeWhile isSpace) .blank := by
  refine .blank ⟨List.takeWhile_prefix _, ?_, fun other others hleads hother => ?_⟩
  · exact mem_someOf.mpr ⟨by simp [hc], fun c hc => List.mem_takeWhile_imp hc⟩
  · obtain rfl := (Pattern.starts_of_prefix hleads hother).eq_blank hc
    exact length_le_takeWhile hleads (mem_someOf.mp hother).2

theorem comment_isLexeme (rest : List Char) :
    IsLexeme ('/' :: '/' :: rest) (('/' :: '/' :: rest).takeWhile (· ≠ '\n')) .comment := by
  refine .comment ⟨List.takeWhile_prefix _, ?_, fun other others hleads hother => ?_⟩
  · exact mem_comment.mpr ⟨rest.takeWhile (· ≠ '\n'), by simp, fun c hc => by
      simpa using List.mem_takeWhile_imp hc⟩
  · refine length_le_takeWhile hleads ?_
    have hstarts := Pattern.starts_of_prefix hleads hother
    rcases hstarts.sign isSign_slash with ⟨rfl, -⟩ | ⟨-, hentry⟩ | ⟨shape, rfl, hshape⟩
    · obtain ⟨text, rfl, htext⟩ := mem_comment.mp hother
      simpa using htext
    · exact absurd hentry (by decide)
    · obtain rfl : others = [shape.char] := hother
      rw [← hshape, List.forall_mem_singleton]
      rfl

theorem entryMark_isLexeme {text : List Char} (hleads : Keyword.entryMark.text.toList <+: text) :
    IsLexeme text Keyword.entryMark.text.toList (.token (.keyword .entryMark)) := by
  obtain ⟨behind, rfl⟩ := hleads
  refine .keyword ⟨List.prefix_append _ _, rfl, fun other others hleads hother => ?_⟩
  have hstarts := Pattern.starts_of_prefix hleads hother
  rcases hstarts.sign isSign_at with ⟨-, hcomment⟩ | ⟨rfl, -⟩ | ⟨shape, rfl, hshape⟩
  · exact absurd hcomment (by decide)
  · obtain rfl : others = Keyword.entryMark.text.toList := hother
    exact Nat.le_refl _
  · exact absurd hshape.symm shape.char_ne_at

/-- The scanner takes the longest match, whatever the text. -/
theorem longest_isLexeme (c : Char) (rest : List Char) :
    IsLexeme (c :: rest) (longest c rest).2 (longest c rest).1 := by
  unfold longest
  dsimp only
  split_ifs with hspace hdigit hname hcomment hentry
  · exact blank_isLexeme hspace
  · exact number_isLexeme hdigit
  · exact name_isLexeme hname
  · obtain ⟨rfl, hhead⟩ : c = '/' ∧ rest.head? = some '/' := by simpa using hcomment
    obtain ⟨behind, rfl⟩ := List.head?_eq_some_iff.mp hhead
    exact comment_isLexeme behind
  · exact entryMark_isLexeme (List.isPrefixOf_iff_prefix.mp hentry)
  · have hmark {pattern : Pattern} {others : List Char} (hleads : others <+: c :: rest)
        (hother : others ∈ pattern.form) : ∃ shape : Mark, c = shape.char ∧ others = [c] :=
      eq_mark_of_sign ⟨hspace, hdigit, hname⟩ (by simpa using hcomment)
        (fun hprefix => hentry (List.isPrefixOf_iff_prefix.mpr hprefix)) hleads hother
    split
    · rename_i shape hshape
      refine .mark ⟨List.prefix_append [c] rest, ?_, fun other others hleads hother => ?_⟩
      · rw [← Mark.char_of_ofChar? hshape]
        rfl
      · obtain ⟨-, -, rfl⟩ := hmark hleads hother
        exact Nat.le_refl _
    · rename_i hnone
      refine .unknown rfl fun pattern others hleads hother => ?_
      obtain ⟨shape, rfl, -⟩ := hmark hleads hother
      rw [Mark.ofChar?_char] at hnone
      nomatch hnone

end GateBench.Syntax
