import GateBench.Proofs.MaximalMunch
import GateBench.Proofs.SourceGrammar

/-!
Names of operations as they are read.  The name of an operation is one of the identifiers of its
text, and so is the simple name of a call's target; an identifier has no dot, so the dotted form of
a name reads back as that name.
-/

namespace GateBench

namespace Syntax

variable {α : Type} {tokens span : List Lexed} {declared : Declaration}

/-! ### Names of operations -/

theorem Repeated.exists_infix {Item : List Lexed → α → Prop} {values : List α}
    (h : Repeated Item span values) :
    ∀ value ∈ values, ∃ part, part <:+: span ∧ Item part value := by
  induction h with
  | nil => nofun
  | @cons front first others values hitem hothers ih =>
      intro value hvalue
      rcases List.mem_cons.mp hvalue with rfl | hvalue
      · exact ⟨front, (List.prefix_append front others).isInfix, hitem⟩
      · obtain ⟨part, hpart, hitem⟩ := ih value hvalue
        exact ⟨part, hpart.trans (List.suffix_append front others).isInfix, hitem⟩

/-- The operations of a file stand among its tokens. -/
theorem file_exists_infix {scope : Option QualifiedName} {found : List Declaration}
    (hread : file tokens = .ok (scope, found)) :
    ∀ declared ∈ found, ∃ part, part <:+: tokens ∧ IsDeclaration part declared := by
  cases file_eq_ok_iff.mp hread with
  | plain h => exact h.exists_infix
  | @within line front scope closing back _ hscope h =>
      intro declared hdeclared
      obtain ⟨part, hpart, hdeclaration⟩ := h.exists_infix declared hdeclared
      have hback : back <:+ ⟨.keyword .namespaceWord, line⟩ ::
          (front ++ ⟨.mark .semicolon, closing⟩ :: back) :=
        ((List.suffix_cons _ back).trans (List.suffix_append front _)).trans (List.suffix_cons _ _)
      exact ⟨part, hpart.trans hback.isInfix, hdeclaration⟩

theorem IsOperation.name_mem {isEntry : Bool} (h : IsOperation isEntry span declared) :
    ∃ line, ⟨.identifier declared.name, line⟩ ∈ span := by
  cases h with
  | intro hname hbody =>
      obtain ⟨line, rfl⟩ := hname
      exact ⟨line, by simp⟩

theorem IsDeclaration.name_mem (h : IsDeclaration span declared) :
    ∃ line, ⟨.identifier declared.name, line⟩ ∈ span := by
  cases h with
  | unmarked h => exact h.name_mem
  | marked h =>
      obtain ⟨line, hmem⟩ := h.name_mem
      exact ⟨line, List.mem_cons_of_mem _ hmem⟩

theorem file_names {scope : Option QualifiedName} {found : List Declaration}
    (hread : file tokens = .ok (scope, found)) :
    ∀ declared ∈ found, ∃ line, ⟨.identifier declared.name, line⟩ ∈ tokens := by
  intro declared hdeclared
  obtain ⟨part, hpart, hdeclaration⟩ := file_exists_infix hread declared hdeclared
  obtain ⟨line, hmem⟩ := hdeclaration.name_mem
  exact ⟨line, hpart.subset hmem⟩

/-! ### Targets of calls -/

theorem Separated.exists_infix {mark : Mark} {Item : List Lexed → α → Prop} {values : List α}
    (h : Separated mark Item span values) :
    ∀ value ∈ values, ∃ part, part <:+: span ∧ Item part value := by
  induction h with
  | last hitem =>
      intro value hvalue
      obtain rfl := List.mem_singleton.mp hvalue
      exact ⟨_, List.infix_rfl, hitem⟩
  | @cons front first line others values hitem hothers ih =>
      intro value hvalue
      rcases List.mem_cons.mp hvalue with rfl | hvalue
      · exact ⟨front, (List.prefix_append front _).isInfix, hitem⟩
      · obtain ⟨part, hpart, hitem⟩ := ih value hvalue
        have hothers : others <:+ front ++ ⟨.mark mark, line⟩ :: others :=
          (List.suffix_cons _ others).trans (List.suffix_append front _)
        exact ⟨part, hpart.trans hothers.isInfix, hitem⟩

theorem IsQualified.name_mem {qualified : QualifiedName} (h : IsQualified span qualified) :
    ∃ line, ⟨.identifier qualified.name, line⟩ ∈ span := by
  obtain ⟨scope, name, hparts, rfl⟩ := h
  obtain ⟨part, hpart, line, rfl⟩ :=
    hparts.exists_infix name (List.mem_append_right scope List.mem_cons_self)
  exact ⟨line, hpart.subset List.mem_cons_self⟩

theorem IsStatement.target_mem {statement : Statement} {target : QualifiedName}
    (h : IsStatement span statement) (hcall : statement.action = .call target) :
    ∃ line, ⟨.identifier target.name, line⟩ ∈ span := by
  cases h with
  | intro haction =>
      obtain rfl := hcall
      cases haction with
      | call htarget =>
          obtain ⟨line, hmem⟩ := htarget.name_mem
          exact ⟨line, List.mem_cons_of_mem _ (List.mem_append_left _ hmem)⟩

theorem IsOperation.exists_infix {isEntry : Bool} (h : IsOperation isEntry span declared) :
    ∀ statement ∈ declared.body, ∃ part, part <:+: span ∧ IsStatement part statement := by
  cases h with
  | @intro line front name opening body closing statements hname hbody =>
      intro statement hstatement
      obtain ⟨part, hpart, hitem⟩ := hbody.exists_infix statement hstatement
      refine ⟨part, hpart.trans ?_, hitem⟩
      exact ⟨⟨.keyword .operationWord, line⟩ :: (front ++ [⟨.mark .leftBrace, opening⟩]),
        [⟨.mark .rightBrace, closing⟩], by simp⟩

/-- The statements of an operation stand among its tokens. -/
theorem IsDeclaration.exists_infix (h : IsDeclaration span declared) :
    ∀ statement ∈ declared.body, ∃ part, part <:+: span ∧ IsStatement part statement := by
  cases h with
  | unmarked h => exact h.exists_infix
  | @marked line inner _ h =>
      intro statement hstatement
      obtain ⟨part, hpart, hitem⟩ := h.exists_infix statement hstatement
      exact ⟨part, hpart.trans (List.suffix_cons _ inner).isInfix, hitem⟩

theorem file_targets {scope : Option QualifiedName} {found : List Declaration}
    (hread : file tokens = .ok (scope, found)) :
    ∀ declared ∈ found, ∀ statement ∈ declared.body, ∀ target, statement.action = .call target →
      ∃ line, ⟨.identifier target.name, line⟩ ∈ tokens := by
  intro declared hdeclared statement hstatement target hcall
  obtain ⟨part, hpart, hdeclaration⟩ := file_exists_infix hread declared hdeclared
  obtain ⟨inner, hinner, hitem⟩ := hdeclaration.exists_infix statement hstatement
  obtain ⟨line, hmem⟩ := hitem.target_mem hcall
  exact ⟨line, (hinner.trans hpart).subset hmem⟩

/-- An identifier of a text has characters of names only. -/
theorem tokenize_name {text : String} {item : Item} (hitem : item ∈ tokenize text) {name : String}
    (hname : item.content = .ok (.identifier name)) : ∀ c ∈ name.toList, isNameChar c := by
  obtain ⟨before, chars, after, -, hstands⟩ := tokenize_stands hitem
  obtain ⟨lexeme, hlexeme, hcontent⟩ := hstands.content
  rw [hname] at hcontent
  cases hcontent
  cases hlexeme with
  | name hmatch hword =>
      rw [String.toList_ofList]
      exact isNameChar_of_mem_name hmatch.matched

end Syntax

/-! ### Dotted forms -/

theorem splitAtLast?_eq_none {mark : Char} {chars : List Char} (hmark : mark ∉ chars) :
    splitAtLast? mark chars = none := by
  have hall : chars.reverse.takeWhile (· ≠ mark) = chars.reverse :=
    List.takeWhile_eq_self_iff.mpr fun c hc => by
      have hc : c ∈ chars := List.mem_reverse.mp hc
      exact decide_eq_true fun heq => hmark (heq ▸ hc)
  simp only [splitAtLast?, hall, List.reverse_reverse, if_true]

theorem splitAtLast?_append {mark : Char} (front : List Char) {last : List Char}
    (hmark : mark ∉ last) : splitAtLast? mark (front ++ mark :: last) = some (front, last) := by
  have hlast : ((front ++ mark :: last).reverse.takeWhile (· ≠ mark)).reverse = last := by
    have hall : ∀ c ∈ last.reverse, decide (c ≠ mark) = true := fun c hc => by
      have hc : c ∈ last := List.mem_reverse.mp hc
      exact decide_eq_true fun heq => hmark (heq ▸ hc)
    rw [List.reverse_append, List.reverse_cons, List.append_assoc,
      List.takeWhile_append_of_pos hall]
    simp
  have hlength : (front ++ mark :: last).length - last.length - 1 = front.length := by
    simp only [List.length_append, List.length_cons]
    omega
  simp only [splitAtLast?, hlast, hlength]
  rw [if_neg (by simp only [List.length_append, List.length_cons]; omega), List.take_left]

/-- The dotted form of a name reads back as that name, unless the simple name has a dot itself. -/
theorem QualifiedName.ofText_text {qualified : QualifiedName}
    (hname : '.' ∉ qualified.name.toList) : ofText qualified.text = qualified := by
  obtain ⟨scope, name⟩ := qualified
  cases scope with
  | none => simp [QualifiedName.text, ofText, splitAtLast?_eq_none hname]
  | some scope =>
      have htext : (scope ++ "." ++ name).toList = scope.toList ++ '.' :: name.toList := by simp
      simp [QualifiedName.text, ofText, htext, splitAtLast?_append scope.toList hname]

/-- Names whose simple names have no dots differ in their dotted forms. -/
theorem QualifiedName.text_inj {first second : QualifiedName} (hfirst : '.' ∉ first.name.toList)
    (hsecond : '.' ∉ second.name.toList) (htext : first.text = second.text) : first = second := by
  rw [← ofText_text hfirst, htext, ofText_text hsecond]

namespace Program

variable {source : Source} {parsed : Syntax.SourceFile}

theorem validTokens_mem {items : List Syntax.Item} {tokens : List Syntax.Lexed}
    (hvalid : validTokens items = .ok tokens) :
    ∀ lexed ∈ tokens, ∃ item ∈ items, item.content = .ok lexed.token ∧ item.line = lexed.line := by
  obtain ⟨-, rfl⟩ := Syntax.validTokens_eq_ok_iff.mp hvalid
  intro lexed hlexed
  obtain ⟨item, hitem, hsame⟩ := List.mem_filterMap.mp hlexed
  obtain ⟨content, start, stop, line⟩ := item
  cases content with
  | error chars => cases hsame
  | ok token =>
      obtain rfl := Option.some.inj hsame
      exact ⟨_, hitem, rfl, rfl⟩

/-- An identifier of a text has no dot. -/
theorem identifier_dotFree {text : String} {tokens : List Syntax.Lexed} {name : String} {line : Nat}
    (hvalid : validTokens (Syntax.tokenize text) = .ok tokens)
    (hmem : ⟨.identifier name, line⟩ ∈ tokens) : '.' ∉ name.toList := by
  intro hdot
  obtain ⟨item, hitem, hcontent, -⟩ := validTokens_mem hvalid _ hmem
  exact absurd (Syntax.tokenize_name hitem hcontent '.' hdot) (by decide)

theorem exists_tokens_of_parse (hparsed : parse source = .ok parsed) :
    ∃ tokens scope, validTokens (Syntax.tokenize source.text) = .ok tokens ∧
      Syntax.file tokens = .ok (scope, parsed.declarations) := by
  unfold parse at hparsed
  split at hparsed
  · nomatch hparsed
  · rename_i tokens hvalid
    split at hparsed
    · nomatch hparsed
    · rename_i scope declarations hfile
      obtain rfl := Except.ok.inj hparsed
      exact ⟨tokens, scope, hvalid, hfile⟩

/-- The name of an operation that a source declares has no dot. -/
theorem parse_name_dotFree (hparsed : parse source = .ok parsed) :
    ∀ declaration ∈ parsed.declarations, '.' ∉ declaration.name.toList := by
  obtain ⟨tokens, scope, hvalid, hfile⟩ := exists_tokens_of_parse hparsed
  intro declaration hdeclaration
  obtain ⟨line, hmem⟩ := Syntax.file_names hfile declaration hdeclaration
  exact identifier_dotFree hvalid hmem

/-- The simple name that a call of a source is made by has no dot. -/
theorem parse_target_dotFree (hparsed : parse source = .ok parsed) :
    ∀ declaration ∈ parsed.declarations, ∀ statement ∈ declaration.body, ∀ target,
      statement.action = .call target → '.' ∉ target.name.toList := by
  obtain ⟨tokens, scope, hvalid, hfile⟩ := exists_tokens_of_parse hparsed
  intro declaration hdeclaration statement hstatement target hcall
  obtain ⟨line, hmem⟩ :=
    Syntax.file_targets hfile declaration hdeclaration statement hstatement target hcall
  exact identifier_dotFree hvalid hmem

end Program

end GateBench
