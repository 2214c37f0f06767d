import GateBench.Proofs.AngleGrammar

/-!
The grammar of statements, with the tree of each derivation:

    statement := measure WHOLE ";" | reset WHOLE ";" | call qualified ";"
               | IDENTIFIER [ "(" [ angle { "," angle } ] ")" ] WHOLE { "," WHOLE } ";"
    qualified := IDENTIFIER { "." IDENTIFIER }

The readers of statements owe to it what readers with one token of lookahead owe to a grammar, and
take every statement whole.
-/

namespace GateBench.Syntax

variable {α : Type}

/-! ### The grammar -/

/-- `qualified := IDENTIFIER { "." IDENTIFIER }`: the parts in front of the last one, with dots
between them, are the namespace. -/
def IsQualified (span : List Lexed) (qualified : QualifiedName) : Prop :=
  ∃ scope name, Separated .dot (IsToken .identifier) span (scope ++ [name]) ∧
    qualified = ⟨if scope = [] then none else some (".".intercalate scope), name⟩

/-- `[ "(" [ angle { "," angle } ] ")" ]` -/
inductive IsParameters : List Lexed → List Expression → Prop where
  | missing : IsParameters [] []
  | empty {opening closing} :
      IsParameters [⟨.mark .leftParen, opening⟩, ⟨.mark .rightParen, closing⟩] []
  | angles {opening closing span values} (hvalues : Separated .comma IsAngle span values) :
      IsParameters (⟨.mark .leftParen, opening⟩ :: (span ++ [⟨.mark .rightParen, closing⟩])) values

/-- What stands in front of the semicolon of a statement. -/
inductive IsAction : List Lexed → Action → Prop where
  | measure {line span qubit} (hqubit : IsToken .whole span qubit) :
      IsAction (⟨.keyword .measureWord, line⟩ :: span) (.measure qubit)
  | reset {line span qubit} (hqubit : IsToken .whole span qubit) :
      IsAction (⟨.keyword .resetWord, line⟩ :: span) (.reset qubit)
  | call {line span target} (htarget : IsQualified span target) :
      IsAction (⟨.keyword .callWord, line⟩ :: span) (.call target)
  | gate {name line front parameters back qubits} (hparameters : IsParameters front parameters)
      (hqubits : Separated .comma (IsToken .whole) back qubits) :
      IsAction (⟨.identifier name, line⟩ :: (front ++ back)) (.gate ⟨name, parameters, qubits⟩)

/-- A statement has the line of its first token. -/
inductive IsStatement : List Lexed → Statement → Prop where
  | intro {first span action line} (haction : IsAction (first :: span) action) :
      IsStatement (first :: (span ++ [⟨.mark .semicolon, line⟩])) ⟨action, first.line⟩

/-! ### Dotted names -/

/-- The name that dotted parts make. -/
def nameOfParts (parts : List String) : QualifiedName :=
  ⟨if parts.dropLast = [] then none else some (".".intercalate parts.dropLast),
    parts.getLast?.getD ""⟩

theorem Separated.ne_nil {mark : Mark} {Item : List Lexed → α → Prop} {span : List Lexed}
    {values : List α} (h : Separated mark Item span values) : values ≠ [] := by
  cases h <;> nofun

theorem nameOfParts_append (scope : List String) (name : String) :
    nameOfParts (scope ++ [name]) =
      ⟨if scope = [] then none else some (".".intercalate scope), name⟩ := by
  simp [nameOfParts]

theorem IsQualified.of_separated {span : List Lexed} {parts : List String}
    (h : Separated .dot (IsToken .identifier) span parts) :
    IsQualified span (nameOfParts parts) := by
  have hparts := List.dropLast_append_getLast h.ne_nil
  rw [← hparts] at h ⊢
  exact ⟨_, _, h, nameOfParts_append _ _⟩

theorem readsFurther_dottedParts : ReadsFurther .dot (view identifier) (view dottedParts) where
  stop tokens hstarts := by
    unfold view
    rw [dottedParts]
    · rfl
    · rintro line after rfl
      exact hstarts _ rfl rfl
  more line after := by
    unfold view
    rw [dottedParts]
    exact pair_bind fun part => pair_bind fun parts => rfl

theorem view_qualifiedName :
    view qualifiedName = (Reader.listOf (view identifier) (view dottedParts)).andThen
      fun parts => .give (nameOfParts parts) := by
  funext tokens
  unfold Reader.listOf
  rw [Reader.andThen_assoc]
  refine pair_bind fun first => ?_
  rw [Reader.andThen_assoc]
  refine pair_bind fun others => ?_
  rfl

theorem qualifiedName_predicts (tokens : List Lexed) :
    Predicts (view qualifiedName) IsQualified tokens := by
  rw [view_qualifiedName]
  refine (readsFurther_dottedParts.listOf_predicts identifier_predicts tokens).andGive ?_
  intro span parts hparts
  exact .of_separated hparts

theorem IsQualified.qualifiedName_append {span rest : List Lexed} {qualified : QualifiedName}
    (h : IsQualified span qualified) (hrest : StartsOff .dot rest) :
    view qualifiedName (span ++ rest) = .ok (qualified, rest) := by
  obtain ⟨scope, name, hparts, rfl⟩ := h
  have hread := readsFurther_dottedParts.listOf_append (fun _ _ => identifier_of_isToken)
    hparts hrest
  rw [view_qualifiedName, Reader.andThen_of_ok hread, nameOfParts_append]
  rfl

/-! ### Statements -/

theorem readsFurther_furtherQubits :
    ReadsFurther .comma (view qubitIndex) (view furtherQubits) where
  stop tokens hstarts := by
    unfold view
    rw [furtherQubits]
    · rfl
    · rintro line after rfl
      exact hstarts _ rfl rfl
  more line after := by
    unfold view
    rw [furtherQubits]
    exact pair_bind fun qubit => pair_bind fun qubits => rfl

theorem readsFurther_furtherAngles : ReadsFurther .comma (view angle) (view furtherAngles) where
  stop tokens hstarts := by
    unfold view
    rw [furtherAngles]
    · rfl
    · rintro line after rfl
      exact hstarts _ rfl rfl
  more line after := by
    unfold view
    rw [furtherAngles]
    exact pair_bind fun first => pair_bind fun others => rfl

theorem parameters_missing {tokens : List Lexed} (hstarts : StartsOff .leftParen tokens) :
    view parameters tokens = .ok ([], tokens) := by
  unfold view parameters
  split
  · exact absurd rfl (hstarts _ rfl)
  · exact absurd rfl (hstarts _ rfl)
  · rfl

theorem parameters_empty (opening closing : Nat) (rest : List Lexed) :
    view parameters (⟨.mark .leftParen, opening⟩ :: ⟨.mark .rightParen, closing⟩ :: rest) =
      .ok ([], rest) :=
  rfl

theorem parameters_angles (line : Nat) {tokens : List Lexed}
    (hstarts : StartsOff .rightParen tokens) :
    view parameters (⟨.mark .leftParen, line⟩ :: tokens) =
      ((Reader.listOf (view angle) (view furtherAngles)).andThen fun values =>
        (view (single (.mark .rightParen))).andThen fun _ => .give values) tokens := by
  have hread : parameters (⟨.mark .leftParen, line⟩ :: tokens) = do
      let first ← angle tokens
      let others ← furtherAngles first.rest
      let closing ← single (.mark .rightParen) others.rest
      return ⟨first.value :: others.value, closing.rest, by
        have := first.shorter; have := others.shorter; have := closing.shorter; simp; omega⟩ := by
    rw [parameters]
    rintro closing rest rfl
    exact hstarts _ rfl rfl
  unfold Reader.listOf
  rw [Reader.andThen_assoc]
  refine (congrArg (Except.map Parsed.pair) hread).trans (pair_bind fun first => ?_)
  rw [Reader.andThen_assoc]
  refine pair_bind fun others => ?_
  rw [Reader.give_andThen]
  exact pair_bind fun closing => rfl

theorem parameters_predicts (tokens : List Lexed) :
    Predicts (view parameters) IsParameters tokens := by
  by_cases hstarts : StartsOff .leftParen tokens
  · refine Predicts.of_head (.give []) (.give .missing) fun others hothers => ?_
    exact parameters_missing (by rwa [StartsOff, hothers])
  · obtain ⟨line, after, rfl⟩ := exists_of_not_startsOff hstarts
    by_cases hclosing : StartsOff .rightParen after
    · refine Predicts.behind _ ?_ fun others hothers =>
        parameters_angles line (by rwa [StartsOff, hothers])
      refine (readsFurther_furtherAngles.listOf_predicts angle_predicts after).andThen ?_ ?_
      · intro span values hvalues
        exact ⟨[⟨.mark .rightParen, 1⟩], values, .angles hvalues⟩
      · intro span values rest _ hvalues _
        refine (single_predicts _ rest).andGive ?_
        rintro more ⟨⟩ ⟨closing, rfl⟩
        exact .angles hvalues
    · obtain ⟨closing, rest, rfl⟩ := exists_of_not_startsOff hclosing
      refine Predicts.behind ((view (single (.mark .rightParen))).andThen fun _ => .give []) ?_ ?_
      · refine (single_predicts _ _).andGive ?_
        rintro span ⟨⟩ ⟨closing, rfl⟩
        exact .empty
      · intro others hothers
        obtain ⟨more, rfl⟩ := List.head?_eq_some_iff.mp hothers
        rw [parameters_empty, Reader.andThen_of_ok (single_cons _ _ more)]
        rfl

theorem action_measure (line : Nat) (rest : List Lexed) :
    view action (⟨.keyword .measureWord, line⟩ :: rest) =
      ((view qubitIndex).andThen fun qubit => .give (.measure qubit)) rest :=
  pair_bind fun _ => rfl

theorem action_reset (line : Nat) (rest : List Lexed) :
    view action (⟨.keyword .resetWord, line⟩ :: rest) =
      ((view qubitIndex).andThen fun qubit => .give (.reset qubit)) rest :=
  pair_bind fun _ => rfl

theorem action_call (line : Nat) (rest : List Lexed) :
    view action (⟨.keyword .callWord, line⟩ :: rest) =
      ((view qualifiedName).andThen fun target => .give (.call target)) rest :=
  pair_bind fun _ => rfl

theorem action_gate (name : String) (line : Nat) (rest : List Lexed) :
    view action (⟨.identifier name, line⟩ :: rest) =
      ((view parameters).andThen fun parameters =>
        (Reader.listOf (view qubitIndex) (view furtherQubits)).andThen fun qubits =>
          .give (.gate ⟨name, parameters, qubits⟩)) rest := by
  refine pair_bind fun angles => ?_
  unfold Reader.listOf
  rw [Reader.andThen_assoc]
  refine pair_bind fun first => ?_
  rw [Reader.andThen_assoc]
  exact pair_bind fun others => rfl

/-- A statement fails where it could have begun, if its first token begins none. -/
theorem action_refused {tokens : List Lexed} (hrefused : ∀ others : List Lexed,
    others.head? = tokens.head? → view action others = .error (expected .statement others)) :
    Predicts (view action) IsAction tokens := by
  refine Predicts.expected .statement ?_ hrefused
  exact ⟨[⟨.keyword .resetWord, 1⟩, ⟨.whole 0, 1⟩], .reset 0, .reset ⟨1, rfl⟩⟩

theorem action_predicts (tokens : List Lexed) : Predicts (view action) IsAction tokens := by
  cases tokens with
  | nil =>
      apply action_refused
      intro others hothers
      rw [List.head?_eq_none_iff.mp hothers]
      rfl
  | cons lexed rest =>
      obtain ⟨token, line⟩ := lexed
      cases token with
      | keyword word =>
          cases word with
          | measureWord =>
              refine Predicts.behind _ ?_ fun others _ => action_measure line others
              exact (qubitIndex_predicts rest).andGive fun span qubit hqubit => .measure hqubit
          | resetWord =>
              refine Predicts.behind _ ?_ fun others _ => action_reset line others
              exact (qubitIndex_predicts rest).andGive fun span qubit hqubit => .reset hqubit
          | callWord =>
              refine Predicts.behind _ ?_ fun others _ => action_call line others
              exact (qualifiedName_predicts rest).andGive fun span target htarget => .call htarget
          | _ =>
              apply action_refused
              intro others hothers
              obtain ⟨more, rfl⟩ := List.head?_eq_some_iff.mp hothers
              rfl
      | identifier name =>
          refine Predicts.behind _ ?_ fun others _ => action_gate name line others
          refine (parameters_predicts rest).andThen ?_ ?_
          · intro front parameters hparameters
            have hqubit : Separated .comma (IsToken .whole) [⟨.whole 0, 1⟩] [0] := .last ⟨1, rfl⟩
            exact ⟨_, _, .gate hparameters hqubit⟩
          · intro front parameters middle _ hparameters _
            have hqubits := readsFurther_furtherQubits.listOf_predicts qubitIndex_predicts middle
            exact hqubits.andGive fun back qubits hqubits => .gate hparameters hqubits
      | _ =>
          apply action_refused
          intro others hothers
          obtain ⟨more, rfl⟩ := List.head?_eq_some_iff.mp hothers
          rfl

theorem noSignAhead_comma (line : Nat) (after : List Lexed) :
    NoSignAhead (⟨.mark .comma, line⟩ :: after) := by
  rintro lexed ⟨⟩
  simp

theorem Separated.startsOff {span rest : List Lexed} {values : List Expression}
    (h : Separated .comma IsAngle span values) (hrest : NoSignAhead rest) :
    StartsOff .rightParen (span ++ rest) := by
  cases h with
  | last hangle => exact hangle.startsOff hrest
  | cons hangle hothers =>
      rw [List.append_assoc]
      exact hangle.startsOff (noSignAhead_comma _ _)

theorem IsParameters.parameters_append {span rest : List Lexed} {values : List Expression}
    (h : IsParameters span values) (hrest : StartsOff .leftParen rest) :
    view parameters (span ++ rest) = .ok (values, rest) := by
  cases h with
  | missing => exact parameters_missing hrest
  | empty => exact parameters_empty _ _ rest
  | @angles opening closing span values hvalues =>
      have hclosing : NoSignAhead (⟨.mark .rightParen, closing⟩ :: rest) := by
        rintro lexed ⟨⟩
        simp
      have hread := readsFurther_furtherAngles.listOf_of_separated NoSignAhead noSignAhead_comma
        (fun _ _ _ hangle hrest => hangle.angle_append hrest) hvalues hclosing
        (startsOff_mark (by decide) closing rest)
      rw [List.cons_append, List.append_assoc, List.singleton_append,
        parameters_angles opening (hvalues.startsOff hclosing), Reader.andThen_of_ok hread,
        Reader.andThen_of_ok (single_cons _ closing rest)]
      rfl

theorem Separated.startsOff_leftParen {back : List Lexed} {qubits : List Nat}
    (h : Separated .comma (IsToken .whole) back qubits) (rest : List Lexed) :
    StartsOff .leftParen (back ++ rest) := by
  cases h with
  | last hqubit | cons hqubit hothers =>
      obtain ⟨line, rfl⟩ := hqubit
      rintro lexed ⟨⟩
      nofun

theorem IsAction.action_append {span : List Lexed} {done : Action} (h : IsAction span done)
    (line : Nat) (rest : List Lexed) :
    view action (span ++ ⟨.mark .semicolon, line⟩ :: rest) =
      .ok (done, ⟨.mark .semicolon, line⟩ :: rest) := by
  cases h with
  | measure hqubit =>
      rw [List.cons_append, action_measure, Reader.andThen_of_ok (qubitIndex_of_isToken hqubit _)]
      rfl
  | reset hqubit =>
      rw [List.cons_append, action_reset, Reader.andThen_of_ok (qubitIndex_of_isToken hqubit _)]
      rfl
  | call htarget =>
      have hdot : StartsOff .dot (⟨.mark .semicolon, line⟩ :: rest) :=
        startsOff_mark (by decide) line rest
      have hread := htarget.qualifiedName_append hdot
      rw [List.cons_append, action_call, Reader.andThen_of_ok hread]
      rfl
  | @gate name first front parameters back qubits hparameters hqubits =>
      have hfront := hparameters.parameters_append
        (hqubits.startsOff_leftParen (⟨.mark .semicolon, line⟩ :: rest))
      have hcomma : StartsOff .comma (⟨.mark .semicolon, line⟩ :: rest) :=
        startsOff_mark (by decide) line rest
      have hback := readsFurther_furtherQubits.listOf_append (fun _ _ => qubitIndex_of_isToken)
        hqubits hcomma
      rw [List.cons_append, List.append_assoc, action_gate, Reader.andThen_of_ok hfront,
        Reader.andThen_of_ok hback]
      rfl

/-! ### Whole statements -/

/-- The line of the first token. -/
def lineAhead (tokens : List Lexed) : Nat :=
  (tokens.head?.map (·.line)).getD 1

theorem view_statement (tokens : List Lexed) :
    view statement tokens = ((view action).andThen fun done =>
      (view (single (.mark .semicolon))).andThen fun _ => .give ⟨done, lineAhead tokens⟩) tokens :=
  pair_bind fun _ => pair_bind fun _ => rfl

theorem IsAction.ne_nil {span : List Lexed} {done : Action} (h : IsAction span done) :
    ∃ first others, span = first :: others := by
  cases h <;> exact ⟨_, _, rfl⟩

theorem statement_predicts (tokens : List Lexed) :
    Predicts (view statement) IsStatement tokens := by
  refine Predicts.of_head ((view action).andThen fun done =>
    (view (single (.mark .semicolon))).andThen fun _ => .give ⟨done, lineAhead tokens⟩) ?_ ?_
  · refine (action_predicts tokens).andThen ?_ ?_
    · intro span done hdone
      obtain ⟨first, others, rfl⟩ := hdone.ne_nil
      exact ⟨[⟨.mark .semicolon, 1⟩], _, .intro hdone⟩
    · intro span done rest htokens hdone _
      obtain ⟨first, others, rfl⟩ := hdone.ne_nil
      refine (single_predicts _ rest).andGive ?_
      rintro more ⟨⟩ ⟨line, rfl⟩
      rw [htokens]
      exact .intro hdone
  · intro others hothers
    rw [view_statement, lineAhead, hothers]
    rfl

theorem IsStatement.statement_append {span : List Lexed} {done : Statement}
    (h : IsStatement span done) (rest : List Lexed) :
    view statement (span ++ rest) = .ok (done, rest) := by
  cases h with
  | @intro first span action line haction =>
      have hread := haction.action_append line rest
      rw [List.cons_append, List.append_assoc, List.singleton_append, view_statement,
        ← List.cons_append, Reader.andThen_of_ok hread, Reader.andThen_of_ok (single_cons _ _ _)]
      rfl

theorem IsStatement.startsOff {span : List Lexed} {done : Statement} (h : IsStatement span done)
    (mark : Mark) (rest : List Lexed) : span ++ rest ≠ [] ∧ StartsOff mark (span ++ rest) := by
  cases h with
  | intro haction =>
      constructor
      · nofun
      · cases haction
        all_goals
          rintro lexed ⟨⟩
          nofun

end GateBench.Syntax
