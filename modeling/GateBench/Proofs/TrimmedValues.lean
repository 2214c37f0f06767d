import GateBench.Proofs.JsonSurroundings

/-!
Values in trimmed texts.  Nothing that stands for a value ends with a blank, so the blanks behind a
value are never part of it, and a text that holds a value holds it when it is trimmed.
-/

namespace GateBench

namespace Json

/-- Nothing but blanks. -/
def IsBlankRun (chars : List Char) : Prop :=
  ∀ c ∈ chars, Text.isBlank c = true

variable {chars rest after left more : List Char} {text name : Option String}
  {json item value : Json} {items : List Json} {members : List (Option String × Json)}

theorem IsBlankRun.startsBlank (hmore : IsBlankRun more) : StartsBlank more :=
  fun c hc => hmore c (List.mem_of_mem_head? hc)

theorem IsBlankRun.skipSpaces (hmore : IsBlankRun more) : IsBlankRun (skipSpaces more) :=
  fun c hc => hmore c ((List.dropWhile_suffix isSpace).subset hc)

/-! ### Blanks in front of nothing -/

theorem takeValue_blankRun (hmore : IsBlankRun more) : takeValue more = none := by
  cases more with
  | nil => simp [takeValue, takeNumeral, takeNumber?, takeWhole?, digitRun]
  | cons c others => exact takeValue_blank (hmore c List.mem_cons_self) others

theorem ne_of_isBlank {c mark : Char} (hc : Text.isBlank c = true)
    (hmark : Text.isBlank mark = false) : c ≠ mark := by
  rintro rfl
  rw [hc] at hmark
  nomatch hmark

theorem takeStringRest_blankRun {bound : Nat} (hmore : IsBlankRun more)
    (within : more.length ≤ bound) : takeStringRest text more within = none := by
  induction more generalizing text with
  | nil => rw [takeStringRest]
  | cons c others ih =>
      obtain ⟨hc, hothers⟩ := List.forall_mem_cons.mp hmore
      rw [takeStringRest, if_neg (ne_of_isBlank hc (by decide)),
        if_neg (ne_of_isBlank hc (by decide))]
      split_ifs
      · rfl
      · exact ih hothers _

/-! ### Blanks behind a part -/

/-- A mark that is found in front of blanks is found without them. -/
theorem skipSpaces_of_append {mark : Char} (hmark : Text.isBlank mark = false)
    (hmore : IsBlankRun more) (hfront : skipSpaces (chars ++ more) = mark :: left) :
    ∃ rest, left = rest ++ more ∧ skipSpaces chars = mark :: rest := by
  cases hskipped : skipSpaces chars with
  | nil =>
      rw [skipSpaces_append_of_all (skipSpaces_eq_nil_iff.mp hskipped)] at hfront
      have hblank := hmore.skipSpaces mark (hfront ▸ List.mem_cons_self)
      rw [hmark] at hblank
      nomatch hblank
  | cons c others =>
      rw [skipSpaces_append_cons hskipped] at hfront
      obtain ⟨rfl, rfl⟩ := List.cons.inj hfront
      exact ⟨others, rfl, rfl⟩

theorem skipSpaces_append_of_value (hmore : IsBlankRun more)
    (htaken : Yields (takeValue (skipSpaces (chars ++ more))) json left) :
    skipSpaces (chars ++ more) = skipSpaces chars ++ more := by
  refine skipSpaces_append (fun hnone => ?_) more
  rw [skipSpaces_append_of_all (skipSpaces_eq_nil_iff.mp hnone)] at htaken
  nomatch (takeValue_blankRun hmore.skipSpaces).symm.trans htaken.2

theorem not_isBlank_of_shortEscape? {letter c : Char} (hshort : shortEscape? letter = some c) :
    Text.isBlank letter = false := by
  unfold shortEscape? at hshort
  split at hshort
  all_goals first | rfl | nomatch hshort

/-- An escape has no blanks in it. -/
theorem takeEscape_isSome {c : Option Char} (hmore : StartsBlank more)
    (htaken : Yields (takeEscape (chars ++ more)) c left) : (takeEscape chars).isSome := by
  have hprefix := fun front => @isPrefix_of_filled chars more front hmore
  generalize chars ++ more = whole at htaken hprefix
  obtain ⟨_, htaken⟩ := htaken
  unfold takeEscape at htaken
  split at htaken
  · rename_i a b c d after _
    obtain ⟨unit, hunit, -⟩ := Option.bind_eq_some_iff.mp htaken
    obtain ⟨behind, rfl⟩ := hprefix ['u', a, b, c, d] (List.prefix_append _ after)
      (List.forall_mem_cons.mpr ⟨by decide, not_isBlank_of_codeUnit? hunit⟩)
    simp only [List.cons_append, List.nil_append, takeEscape, hunit, Option.bind_eq_bind,
      Option.bind_some]
    split
    · split <;> rfl
    · rfl
  · rename_i letter after _ _
    obtain ⟨c, hshort, -⟩ := Option.bind_eq_some_iff.mp htaken
    have hletter := not_isBlank_of_shortEscape? hshort
    obtain ⟨behind, rfl⟩ := hprefix [letter] (List.prefix_append _ after) (by simpa using hletter)
    have hu : letter ≠ 'u' := by
      rintro rfl
      cases hshort
    obtain ⟨_, hsome⟩ := @takeEscape_short letter c behind hu hshort
    rw [List.singleton_append, hsome]
    rfl
  · cases htaken

theorem takeStringRest_isSome {bound bound' : Nat} {value : Option String}
    (hmore : IsBlankRun more) (within : chars.length ≤ bound)
    {within' : (chars ++ more).length ≤ bound'}
    (htaken : Yields (takeStringRest text (chars ++ more) within') value left) :
    (takeStringRest text chars within).isSome := by
  induction text, chars, within using takeStringRest.induct with
  | case1 text within =>
      cases (takeStringRest_blankRun hmore within').symm.trans htaken.2
  | case2 text behind =>
      rw [takeStringRest, if_pos rfl]
      rfl
  | case3 text behind hnone =>
      obtain ⟨_, htaken⟩ := htaken
      simp only [List.cons_append] at htaken
      rw [takeStringRest, if_neg (by decide), if_pos rfl] at htaken
      split at htaken
      · cases htaken
      · rename_i escaped hescaped
        have hsome := takeEscape_isSome hmore.startsBlank ⟨escaped.shorter, hescaped⟩
        rw [hnone] at hsome
        cases hsome
  | case4 text behind escaped hescaped _ hquote _ ih =>
      obtain ⟨_, htaken⟩ := htaken
      obtain ⟨_, hescaped'⟩ := takeEscape_append hmore.startsBlank ⟨escaped.shorter, hescaped⟩
      simp only [List.cons_append] at htaken
      rw [takeStringRest, if_neg hquote, if_pos rfl] at htaken
      simp only [hescaped'] at htaken
      rw [takeStringRest, if_neg hquote, if_pos rfl]
      simp only [hescaped]
      exact ih ⟨_, htaken⟩
  | case5 text c behind _ hquote hbackslash hcontrol =>
      obtain ⟨_, htaken⟩ := htaken
      simp only [List.cons_append] at htaken
      rw [takeStringRest, if_neg hquote, if_neg hbackslash, if_pos hcontrol] at htaken
      cases htaken
  | case6 text c behind _ hquote hbackslash hcontrol _ ih =>
      obtain ⟨_, htaken⟩ := htaken
      simp only [List.cons_append] at htaken
      rw [takeStringRest, if_neg hquote, if_neg hbackslash, if_neg hcontrol] at htaken
      rw [takeStringRest, if_neg hquote, if_neg hbackslash, if_neg hcontrol]
      exact ih ⟨_, htaken⟩

/-- A closing quote is no blank, so a string ends in front of the blanks. -/
theorem takeString_of_append (hmore : IsBlankRun more)
    (htaken : Yields (takeString (chars ++ more)) text left) :
    ∃ rest, left = rest ++ more ∧ Yields (takeString chars) text rest := by
  obtain ⟨⟨value, rest, shorter⟩, hsome⟩ := Option.isSome_iff_exists.mp
    (takeStringRest_isSome hmore (Nat.le_refl chars.length) htaken)
  have hwhole := takeStringRest_append hmore.startsBlank ⟨shorter, hsome⟩ (Nat.le_refl _)
  obtain ⟨rfl, rfl⟩ := htaken.unique hwhole
  exact ⟨rest, rfl, shorter, hsome⟩

/-! ### Numbers and words -/

theorem takeNumber?_blankRun (hmore : IsBlankRun more) : takeNumber? more = none := by
  cases more with
  | nil => rfl
  | cons c others =>
      have hc := hmore c List.mem_cons_self
      have hminus := ne_of_isBlank hc (show Text.isBlank '-' = false by decide)
      simp [takeNumber?, takeWhole?, digitRun, hminus, isDigit_of_isBlank hc]

theorem takeNumeral_of_append (hmore : IsBlankRun more)
    (htaken : Yields (takeNumeral (chars ++ more)) json left) :
    ∃ rest, left = rest ++ more ∧ Yields (takeNumeral chars) json rest := by
  have hchars : chars ≠ [] := by
    rintro rfl
    obtain ⟨_, htaken⟩ := htaken
    simp [takeNumeral, takeNumber?_blankRun hmore] at htaken
  have hsome : (takeNumeral chars).isSome := by
    obtain ⟨_, htaken⟩ := htaken
    unfold takeNumeral at htaken ⊢
    rw [takeNumber?_append hmore.startsBlank hchars] at htaken
    split at htaken
    · cases htaken
    · rename_i number hnumber
      split_ifs at htaken with hnonempty
      simp [hnonempty.1, hchars]
  obtain ⟨⟨value, rest, shorter⟩, hsome⟩ := Option.isSome_iff_exists.mp hsome
  obtain ⟨rfl, rfl⟩ := htaken.unique (takeNumeral_append hmore.startsBlank ⟨shorter, hsome⟩)
  exact ⟨rest, rfl, shorter, hsome⟩

theorem takeWord_of_append {word : List Char} (hmore : IsBlankRun more)
    (hword : word.all (!Text.isBlank ·) = true)
    (htaken : Yields (takeWord word value (chars ++ more)) json left) :
    ∃ rest, left = rest ++ more ∧ Yields (takeWord word value chars) json rest := by
  obtain ⟨_, htaken⟩ := htaken
  unfold takeWord at htaken
  split_ifs at htaken with hfront
  obtain ⟨behind, rfl⟩ := isPrefix_of_filled hmore.startsBlank
    (List.isPrefixOf_iff_prefix.mp hfront.2) (by simpa using hword)
  cases htaken
  refine ⟨behind, by simp, by simpa [List.length_pos_iff] using hfront.1, ?_⟩
  simp [takeWord, hfront.1]

/-! ### Values -/

/-- What a value is read as is told by its first character. -/
theorem takeValue_dispatch (c : Char) :
    c = '"' ∨ c = '[' ∨ c = '\x7b' ∨
      (∃ word value, word.all (!Text.isBlank ·) = true ∧
        ∀ behind, takeValue (c :: behind) = takeWord word value (c :: behind)) ∨
      ∀ behind, takeValue (c :: behind) = takeNumeral (c :: behind) := by
  by_cases hquote : c = '"'
  · exact .inl hquote
  by_cases hbracket : c = '['
  · exact .inr (.inl hbracket)
  by_cases hbrace : c = '\x7b'
  · exact .inr (.inr (.inl hbrace))
  by_cases hn : c = 'n'
  · exact .inr (.inr (.inr (.inl ⟨"null".toList, .null, by decide, fun behind => by
      rw [hn, takeValue]⟩)))
  by_cases ht : c = 't'
  · exact .inr (.inr (.inr (.inl ⟨"true".toList, .bool true, by decide, fun behind => by
      rw [ht, takeValue]⟩)))
  by_cases hf : c = 'f'
  · exact .inr (.inr (.inr (.inl ⟨"false".toList, .bool false, by decide, fun behind => by
      rw [hf, takeValue]⟩)))
  refine .inr (.inr (.inr (.inr fun behind => ?_)))
  rw [takeValue]
  all_goals
    rintro others heq
    exact absurd (List.cons.inj heq).1 ‹_›

theorem text_of_takeValue (htaken : Yields (takeValue ('"' :: chars)) json rest) :
    ∃ text, json = .string text ∧ Yields (takeString chars) text rest := by
  obtain ⟨_, htaken⟩ := htaken
  rw [takeValue] at htaken
  obtain ⟨⟨text, rest, hless⟩, htext, htaken⟩ := Option.bind_eq_some_iff.mp htaken
  cases htaken
  exact ⟨text, rfl, hless, htext⟩

theorem items_of_takeValue (htaken : Yields (takeValue ('[' :: chars)) json rest) :
    ∃ items, json = .array items ∧ Yields (takeFirstItem chars) items rest := by
  obtain ⟨_, htaken⟩ := htaken
  rw [takeValue] at htaken
  obtain ⟨⟨items, rest, hless⟩, hitems, htaken⟩ := Option.bind_eq_some_iff.mp htaken
  cases htaken
  exact ⟨items, rfl, hless, hitems⟩

theorem members_of_takeValue (htaken : Yields (takeValue ('\x7b' :: chars)) json rest) :
    ∃ members, json = .object members ∧ Yields (takeFirstMember chars) members rest := by
  obtain ⟨_, htaken⟩ := htaken
  rw [takeValue] at htaken
  obtain ⟨⟨members, rest, hless⟩, hmembers, htaken⟩ := Option.bind_eq_some_iff.mp htaken
  cases htaken
  exact ⟨members, rfl, hless, hmembers⟩

/-- What does not stand in front of blanks does not stand without them. -/
theorem skipSpaces_ne_of_append {mark : Char}
    (hopen : ∀ behind, skipSpaces (chars ++ more) ≠ mark :: behind) :
    ∀ behind, skipSpaces chars ≠ mark :: behind :=
  fun behind hmark => hopen (behind ++ more) (skipSpaces_append_cons hmark more)

mutual

/-- A value ends in front of the blanks behind it. -/
theorem takeValue_of_append (hmore : IsBlankRun more) {chars left : List Char} {json : Json}
    (htaken : Yields (takeValue (chars ++ more)) json left) :
    ∃ rest, left = rest ++ more ∧ Yields (takeValue chars) json rest := by
  match chars with
  | [] => nomatch (takeValue_blankRun hmore).symm.trans htaken.2
  | c :: behind =>
      rw [List.cons_append] at htaken
      rcases takeValue_dispatch c with rfl | rfl | rfl | ⟨word, value, hword, hdispatch⟩ | hdispatch
      · obtain ⟨text, rfl, htext⟩ := text_of_takeValue htaken
        obtain ⟨rest, rfl, hless⟩ := takeString_of_append hmore htext
        exact ⟨rest, rfl, takeValue_string hless⟩
      · obtain ⟨items, rfl, hitems⟩ := items_of_takeValue htaken
        rcases takeFirstItem_cases hitems with ⟨hclose, rfl⟩ | ⟨hopen, hitems⟩
        · obtain ⟨rest, rfl, hless⟩ := skipSpaces_of_append (by decide) hmore hclose
          exact ⟨rest, rfl, takeValue_array (takeFirstItem_close hless)⟩
        · obtain ⟨rest, rfl, hless⟩ := takeItems_of_append hmore hitems
          exact ⟨rest, rfl,
            takeValue_array (takeFirstItem_items (skipSpaces_ne_of_append hopen) hless)⟩
      · obtain ⟨members, rfl, hmembers⟩ := members_of_takeValue htaken
        rcases takeFirstMember_cases hmembers with ⟨hclose, rfl⟩ | ⟨hopen, hmembers⟩
        · obtain ⟨rest, rfl, hless⟩ := skipSpaces_of_append (by decide) hmore hclose
          exact ⟨rest, rfl, takeValue_object (takeFirstMember_close hless)⟩
        · obtain ⟨rest, rfl, hless⟩ := takeMembers_of_append hmore hmembers
          exact ⟨rest, rfl,
            takeValue_object (takeFirstMember_members (skipSpaces_ne_of_append hopen) hless)⟩
      · rw [hdispatch] at htaken ⊢
        exact takeWord_of_append hmore hword htaken
      · rw [hdispatch] at htaken ⊢
        exact takeNumeral_of_append hmore htaken
termination_by (chars.length, 0)

theorem takeItems_of_append (hmore : IsBlankRun more) {chars left : List Char} {items : List Json}
    (htaken : Yields (takeItems (chars ++ more)) items left) :
    ∃ rest, left = rest ++ more ∧ Yields (takeItems chars) items rest := by
  obtain ⟨item, others, _, rfl, hvalue, hothers⟩ := takeItems_cases htaken
  rw [skipSpaces_append_of_value hmore hvalue] at hvalue
  obtain ⟨after, rfl, hitem⟩ := takeValue_of_append hmore hvalue
  rcases hothers with ⟨hclose, rfl⟩ | ⟨_, hcomma, hothers⟩
  · obtain ⟨rest, rfl, hend⟩ := skipSpaces_of_append (by decide) hmore hclose
    exact ⟨rest, rfl, takeItems_cons hitem (.inl ⟨hend, rfl⟩)⟩
  · obtain ⟨behind, rfl, hmark⟩ := skipSpaces_of_append (by decide) hmore hcomma
    have hless : behind.length < chars.length :=
      (length_lt_of_skipSpaces hmark).trans (hitem.1.trans_le (length_skipSpaces_le chars))
    obtain ⟨rest, rfl, hend⟩ := takeItems_of_append hmore hothers
    exact ⟨rest, rfl, takeItems_cons hitem (.inr ⟨behind, hmark, hend⟩)⟩
termination_by (chars.length, 1)
decreasing_by
  · exact Prod.Lex.right' _ (length_skipSpaces_le chars) Nat.zero_lt_one
  · exact Prod.Lex.left _ _ hless

theorem takeMembers_of_append (hmore : IsBlankRun more) {chars left : List Char}
    {members : List (Option String × Json)}
    (htaken : Yields (takeMembers (chars ++ more)) members left) :
    ∃ rest, left = rest ++ more ∧ Yields (takeMembers chars) members rest := by
  obtain ⟨name, value, others, _, rfl, ⟨_, _, _, hquote, hname, hcolon, hvalue⟩, hothers⟩ :=
    takeMembers_cases htaken
  obtain ⟨quoted, rfl, hquoted⟩ := skipSpaces_of_append (by decide) hmore hquote
  obtain ⟨nameRest, rfl, hnamed⟩ := takeString_of_append hmore hname
  obtain ⟨afterColon, rfl, hafterColon⟩ := skipSpaces_of_append (by decide) hmore hcolon
  rw [skipSpaces_append_of_value hmore hvalue] at hvalue
  have hshorter := length_value_lt hquoted hnamed hafterColon
  obtain ⟨after, rfl, hheld⟩ := takeValue_of_append hmore hvalue
  have hmember : MemberAt chars name value after :=
    ⟨quoted, nameRest, afterColon, hquoted, hnamed, hafterColon, hheld⟩
  rcases hothers with ⟨hclose, rfl⟩ | ⟨_, hcomma, hothers⟩
  · obtain ⟨rest, rfl, hend⟩ := skipSpaces_of_append (by decide) hmore hclose
    exact ⟨rest, rfl, takeMembers_cons hmember (.inl ⟨hend, rfl⟩)⟩
  · obtain ⟨behind, rfl, hmark⟩ := skipSpaces_of_append (by decide) hmore hcomma
    have hless : behind.length < chars.length :=
      (length_lt_of_skipSpaces hmark).trans hmember.length_lt
    obtain ⟨rest, rfl, hend⟩ := takeMembers_of_append hmore hothers
    exact ⟨rest, rfl, takeMembers_cons hmember (.inr ⟨behind, hmark, hend⟩)⟩
termination_by (chars.length, 1)

end

/-- A text that holds a value holds it when it is trimmed. -/
theorem read?_trim {text : String} (hread : read? text = some json) :
    read? (Text.trim text) = some json := by
  obtain ⟨rest, htaken, hrest⟩ := read?_eq_some_iff.mp hread
  obtain ⟨front, back, htext, -, hblank⟩ := Text.exists_margins text
  obtain ⟨hfront, hback⟩ := List.forall_mem_append.mp hblank
  have hspaces : ∀ c ∈ front, isSpace c = true := by
    by_contra hforeign
    have hnone := takeValue_skipSpaces_of_blank hfront (by simpa using hforeign)
      ((Text.trim text).toList ++ back)
    rw [htext] at htaken
    nomatch hnone.symm.trans htaken.2
  rw [htext, skipSpaces_append_of_all hspaces] at htaken
  rw [skipSpaces_append_of_value hback htaken] at htaken
  obtain ⟨behind, rfl, hcore⟩ := takeValue_of_append hback htaken
  exact read?_eq_some_iff.mpr ⟨behind, hcore, (List.forall_mem_append.mp hrest).1⟩

end Json

end GateBench
