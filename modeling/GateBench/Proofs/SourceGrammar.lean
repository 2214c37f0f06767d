import GateBench.Proofs.StatementGrammar

/-!
The grammar of source files, with the tree of each derivation:

    file        := [ namespace qualified ";" ] declaration*
    declaration := [ @entry ] operation IDENTIFIER "{" statement* "}"

The main result is that a source is read if and only if its tokens are derivable, and that what is
read is the tree of the derivation.
-/

namespace GateBench.Syntax

variable {α : Type}

/-! ### The grammar -/

/-- Items one behind the other. -/
inductive Repeated (Item : List Lexed → α → Prop) : List Lexed → List α → Prop where
  | nil : Repeated Item [] []
  | cons {span value others values} (hitem : Item span value)
      (hothers : Repeated Item others values) :
      Repeated Item (span ++ others) (value :: values)

/-- `operation IDENTIFIER "{" statement* "}"`: an operation has the line of its keyword. -/
inductive IsOperation (isEntry : Bool) : List Lexed → Declaration → Prop where
  | intro {line span name opening body closing statements} (hname : IsToken .identifier span name)
      (hbody : Repeated IsStatement body statements) :
      IsOperation isEntry
        (⟨.keyword .operationWord, line⟩ :: (span ++ ⟨.mark .leftBrace, opening⟩ ::
          (body ++ [⟨.mark .rightBrace, closing⟩])))
        ⟨name, isEntry, line, statements⟩

/-- `declaration := [ @entry ] operation IDENTIFIER "{" statement* "}"` -/
inductive IsDeclaration : List Lexed → Declaration → Prop where
  | unmarked {span declaration} (h : IsOperation false span declaration) :
      IsDeclaration span declaration
  | marked {line span declaration} (h : IsOperation true span declaration) :
      IsDeclaration (⟨.keyword .entryMark, line⟩ :: span) declaration

/-- `file := [ namespace qualified ";" ] declaration*` -/
inductive IsFile : List Lexed → Option QualifiedName × List Declaration → Prop where
  | plain {span declarations} (h : Repeated IsDeclaration span declarations) :
      IsFile span (none, declarations)
  | within {line front scope closing back declarations} (hscope : IsQualified front scope)
      (h : Repeated IsDeclaration back declarations) :
      IsFile (⟨.keyword .namespaceWord, line⟩ :: (front ++ ⟨.mark .semicolon, closing⟩ :: back))
        (some scope, declarations)

/-! ### Operations -/

/-- The statements of an operation and the brace behind them. -/
def IsBody (span : List Lexed) (statements : List Statement) : Prop :=
  ∃ front closing, span = front ++ [⟨.mark .rightBrace, closing⟩] ∧
    Repeated IsStatement front statements

theorem IsBody.nil (closing : Nat) : IsBody [⟨.mark .rightBrace, closing⟩] [] :=
  ⟨[], closing, rfl, .nil⟩

theorem IsBody.cons {front back : List Lexed} {first : Statement} {others : List Statement}
    (hfirst : IsStatement front first) (hothers : IsBody back others) :
    IsBody (front ++ back) (first :: others) := by
  obtain ⟨span, closing, rfl, hspan⟩ := hothers
  exact ⟨front ++ span, closing, by rw [List.append_assoc], .cons hfirst hspan⟩

theorem body_nil : view body [] = .error (.endOfInput (.token (.mark .rightBrace))) := by
  unfold view
  rw [body]
  rfl

theorem body_rightBrace (line : Nat) (rest : List Lexed) :
    view body (⟨.mark .rightBrace, line⟩ :: rest) = .ok ([], rest) := by
  unfold view
  rw [body]
  rfl

theorem body_statement {tokens : List Lexed} (hsome : tokens ≠ [])
    (hstarts : StartsOff .rightBrace tokens) :
    view body tokens = Reader.listOf (view statement) (view body) tokens := by
  cases tokens with
  | nil => exact absurd rfl hsome
  | cons first after =>
      unfold view
      rw [body]
      · exact pair_bind fun statement => pair_bind fun statements => rfl
      · rintro line rfl
        exact hstarts _ rfl rfl

/-- By induction on the tokens, of which each statement leaves fewer. -/
theorem body_predicts (tokens : List Lexed) : Predicts (view body) IsBody tokens := by
  induction hlength : tokens.length using Nat.strongRecOn generalizing tokens with
  | _ length ih =>
    cases tokens with
    | nil =>
        apply Predicts.expected (.token (.mark .rightBrace)) ⟨_, _, .nil 1⟩
        intro others hothers
        rw [List.head?_eq_none_iff.mp hothers]
        exact body_nil
    | cons lexed after =>
        by_cases hstarts : StartsOff .rightBrace (lexed :: after)
        · refine Predicts.of_head (.listOf (view statement) (view body)) ?_ ?_
          · refine (statement_predicts _).andThen ?_ ?_
            · intro span first hfirst
              exact ⟨_, _, .cons hfirst (.nil 1)⟩
            · intro span first rest _ hfirst hread
              have hshort : rest.length < length := hlength ▸ length_lt_of_view hread
              exact (ih rest.length hshort rest rfl).andGive fun more others hothers =>
                .cons hfirst hothers
          · intro others hothers
            refine body_statement ?_ (by rwa [StartsOff, hothers])
            rintro rfl
            cases hothers
        · obtain ⟨line, rest, hsplit⟩ := exists_of_not_startsOff hstarts
          rw [hsplit]
          exact Predicts.one (.nil line) (body_rightBrace line)

theorem Repeated.body_append {span : List Lexed} {statements : List Statement}
    (h : Repeated IsStatement span statements) (closing : Nat) (rest : List Lexed) :
    view body (span ++ ⟨.mark .rightBrace, closing⟩ :: rest) = .ok (statements, rest) := by
  induction h with
  | nil => exact body_rightBrace closing rest
  | @cons span first others statements hfirst _ ih =>
      obtain ⟨hsome, hstarts⟩ :=
        hfirst.startsOff .rightBrace (others ++ ⟨.mark .rightBrace, closing⟩ :: rest)
      rw [List.append_assoc, body_statement hsome hstarts]
      unfold Reader.listOf
      rw [Reader.andThen_of_ok (hfirst.statement_append _), Reader.andThen_of_ok ih]
      rfl

/-- The reader of an operation behind the mark of an entry point. -/
def operationReader (isEntry : Bool) (line : Nat) : Reader Declaration :=
  (view (single (.keyword .operationWord))).andThen fun _ =>
    (view identifier).andThen fun name =>
      (view (single (.mark .leftBrace))).andThen fun _ =>
        (view body).andThen fun statements => .give ⟨name, isEntry, line, statements⟩

theorem view_declaration (tokens : List Lexed) :
    view declaration tokens =
      operationReader (entryMark tokens).1 (lineAhead (entryMark tokens).2)
        (entryMark tokens).2 :=
  pair_bind fun _ => pair_bind fun _ => pair_bind fun _ => pair_bind fun _ => rfl

theorem entryMark_eq_self {tokens : List Lexed}
    (hunmarked : ∀ lexed ∈ tokens.head?, lexed.token ≠ .keyword .entryMark) :
    entryMark tokens = (false, tokens) := by
  unfold entryMark
  split
  · exact absurd rfl (hunmarked _ rfl)
  · rfl

/-- An operation without statements. -/
theorem IsOperation.empty (isEntry : Bool) (line : Nat) {span : List Lexed} {name : String}
    (hname : IsToken .identifier span name) :
    IsOperation isEntry
      (⟨.keyword .operationWord, line⟩ :: (span ++ [⟨.mark .leftBrace, 1⟩, ⟨.mark .rightBrace, 1⟩]))
      ⟨name, isEntry, line, []⟩ :=
  .intro hname .nil

theorem operationReader_predicts (isEntry : Bool) (tokens : List Lexed) :
    Predicts (operationReader isEntry (lineAhead tokens)) (IsOperation isEntry) tokens := by
  refine (single_predicts _ tokens).andThen ?_ ?_
  · rintro _ ⟨⟩ ⟨line, rfl⟩
    have hname : IsToken .identifier [⟨.identifier "f", 1⟩] "f" := ⟨1, rfl⟩
    exact ⟨[⟨.identifier "f", 1⟩, ⟨.mark .leftBrace, 1⟩, ⟨.mark .rightBrace, 1⟩], _,
      .empty isEntry line hname⟩
  rintro _ ⟨⟩ behindKeyword rfl ⟨line, rfl⟩ -
  refine (identifier_predicts behindKeyword).andThen ?_ ?_
  · intro span name hname
    exact ⟨_, _, .empty isEntry line hname⟩
  intro span name behindName _ hname _
  refine (single_predicts _ behindName).andThen ?_ ?_
  · rintro _ ⟨⟩ ⟨opening, rfl⟩
    exact ⟨[⟨.mark .rightBrace, 1⟩], _, by simpa using .intro hname .nil⟩
  rintro _ ⟨⟩ behindBrace _ ⟨opening, rfl⟩ -
  refine (body_predicts behindBrace).andGive ?_
  rintro _ statements ⟨body, closing, rfl, hbody⟩
  exact .intro hname hbody

theorem IsOperation.starts {isEntry : Bool} {span : List Lexed} {declared : Declaration}
    (h : IsOperation isEntry span declared) :
    ∃ line others, span = ⟨.keyword .operationWord, line⟩ :: others := by
  cases h
  exact ⟨_, _, rfl⟩

theorem IsOperation.operation_append {isEntry : Bool} {span : List Lexed} {declared : Declaration}
    (h : IsOperation isEntry span declared) (rest : List Lexed) :
    operationReader isEntry (lineAhead (span ++ rest)) (span ++ rest) = .ok (declared, rest) := by
  cases h with
  | @intro line span name opening body closing statements hname hbody =>
      have hstatements := hbody.body_append closing rest
      simp only [List.cons_append, List.append_assoc, List.nil_append]
      unfold operationReader
      rw [Reader.andThen_of_ok (single_cons _ _ _),
        Reader.andThen_of_ok (identifier_of_isToken hname _),
        Reader.andThen_of_ok (single_cons _ _ _), Reader.andThen_of_ok hstatements]
      rfl

theorem declaration_predicts (tokens : List Lexed) :
    Predicts (view declaration) IsDeclaration tokens := by
  by_cases hunmarked : ∀ lexed ∈ tokens.head?, lexed.token ≠ .keyword .entryMark
  · refine Predicts.of_head (operationReader false (lineAhead tokens)) ?_ fun others hothers => ?_
    · exact (operationReader_predicts false tokens).mono fun _ _ h => .unmarked h
    · rw [view_declaration, entryMark_eq_self (by rwa [hothers])]
      simp only [lineAhead, hothers]
  · cases tokens with
    | nil => exact absurd (by simp) hunmarked
    | cons lexed rest =>
        obtain ⟨token, line⟩ := lexed
        obtain rfl : token = .keyword .entryMark := by simpa using hunmarked
        refine Predicts.behind (operationReader true (lineAhead rest)) ?_ fun others hothers => ?_
        · exact (operationReader_predicts true rest).mono fun _ _ h => .marked h
        · rw [view_declaration]
          simp only [entryMark, lineAhead, hothers]

theorem IsDeclaration.declaration_append {span : List Lexed} {declared : Declaration}
    (h : IsDeclaration span declared) (rest : List Lexed) :
    view declaration (span ++ rest) = .ok (declared, rest) := by
  rw [view_declaration]
  cases h with
  | unmarked h =>
      have hunmarked : ∀ lexed ∈ (span ++ rest).head?, lexed.token ≠ .keyword .entryMark := by
        obtain ⟨line, others, rfl⟩ := h.starts
        rintro lexed ⟨⟩
        nofun
      rw [entryMark_eq_self hunmarked]
      exact h.operation_append rest
  | marked h => exact h.operation_append rest

theorem IsDeclaration.starts {span : List Lexed} {declared : Declaration}
    (h : IsDeclaration span declared) :
    ∃ first others, span = first :: others ∧ first.token ≠ .keyword .namespaceWord := by
  cases h with
  | unmarked h =>
      obtain ⟨line, others, rfl⟩ := h.starts
      exact ⟨_, _, rfl, nofun⟩
  | marked h => exact ⟨_, _, rfl, nofun⟩

/-! ### Files -/

/-- A reader that leaves nothing. -/
def wholly (read : List Lexed → Except SyntaxError α) : Reader α :=
  fun tokens => (read tokens).map (·, [])

theorem wholly_bind {β γ : Type} {read : List Lexed → Except SyntaxError α} {tokens : List Lexed}
    {seen : γ → β × List Lexed} {next : α → Except SyntaxError γ} {after : α → Reader β}
    (hnext : ∀ value, (next value).map seen = after value []) :
    (read tokens >>= next).map seen = (wholly read).andThen after tokens := by
  unfold wholly Reader.andThen
  dsimp only
  cases read tokens with
  | error error => rfl
  | ok value => exact hnext value

theorem declarations_nil : wholly declarations [] = .ok ([], []) := by
  unfold wholly
  rw [declarations]
  rfl

theorem declarations_of_ne_nil {tokens : List Lexed} (hsome : tokens ≠ []) :
    wholly declarations tokens =
      Reader.listOf (view declaration) (wholly declarations) tokens := by
  cases tokens with
  | nil => exact absurd rfl hsome
  | cons first after =>
      unfold wholly
      rw [declarations]
      exact pair_bind fun declared => wholly_bind fun others => rfl

/-- By induction on the tokens, of which each operation leaves fewer. -/
theorem declarations_predicts (tokens : List Lexed) :
    Predicts (wholly declarations) (Repeated IsDeclaration) tokens := by
  induction hlength : tokens.length using Nat.strongRecOn generalizing tokens with
  | _ length ih =>
    by_cases hsome : tokens = []
    · refine Predicts.of_head (.give []) (.give .nil) fun others hothers => ?_
      rw [hsome] at hothers
      rw [List.head?_eq_none_iff.mp hothers]
      exact declarations_nil
    · refine Predicts.of_head (.listOf (view declaration) (wholly declarations)) ?_ ?_
      · refine (declaration_predicts tokens).andThen ?_ ?_
        · intro span first hfirst
          exact ⟨[], [first], .cons hfirst .nil⟩
        · intro span first rest _ hfirst hread
          have hshort : rest.length < length := hlength ▸ length_lt_of_view hread
          exact (ih rest.length hshort rest rfl).andGive fun more others hothers =>
            .cons hfirst hothers
      · intro others hothers
        refine declarations_of_ne_nil ?_
        rintro rfl
        exact hsome (List.head?_eq_none_iff.mp hothers.symm)

theorem Repeated.declarations_append {span : List Lexed} {declared : List Declaration}
    (h : Repeated IsDeclaration span declared) :
    wholly declarations span = .ok (declared, []) := by
  induction h with
  | nil => exact declarations_nil
  | @cons span first others declared hfirst _ ih =>
      have hsome : span ++ others ≠ [] := by
        obtain ⟨lexed, rest, rfl, -⟩ := hfirst.starts
        nofun
      rw [declarations_of_ne_nil hsome]
      unfold Reader.listOf
      rw [Reader.andThen_of_ok (hfirst.declaration_append _), Reader.andThen_of_ok ih]
      rfl

theorem file_scoped (line : Nat) (rest : List Lexed) :
    wholly file (⟨.keyword .namespaceWord, line⟩ :: rest) =
      ((view qualifiedName).andThen fun scope =>
        (view (single (.mark .semicolon))).andThen fun _ =>
          (wholly declarations).andThen fun declared => .give (some scope, declared)) rest :=
  pair_bind fun _ => pair_bind fun _ => wholly_bind fun _ => rfl

theorem file_plain {tokens : List Lexed}
    (hplain : ∀ lexed ∈ tokens.head?, lexed.token ≠ .keyword .namespaceWord) :
    wholly file tokens =
      ((wholly declarations).andThen fun declared => .give (none, declared)) tokens := by
  unfold wholly file
  split
  · exact absurd rfl (hplain _ rfl)
  · exact wholly_bind fun _ => rfl

theorem file_predicts (tokens : List Lexed) : Predicts (wholly file) IsFile tokens := by
  by_cases hplain : ∀ lexed ∈ tokens.head?, lexed.token ≠ .keyword .namespaceWord
  · refine Predicts.of_head ((wholly declarations).andThen fun declared => .give (none, declared))
      ?_ fun others hothers => ?_
    · exact (declarations_predicts tokens).andGive fun span declared hdeclared => .plain hdeclared
    · exact file_plain (by rwa [hothers])
  · cases tokens with
    | nil => exact absurd nofun hplain
    | cons lexed rest =>
        obtain ⟨token, line⟩ := lexed
        obtain rfl : token = .keyword .namespaceWord := by simpa using hplain
        refine Predicts.behind _ ?_ fun others _ => file_scoped line others
        refine (qualifiedName_predicts rest).andThen ?_ ?_
        · intro span scope hscope
          exact ⟨[⟨.mark .semicolon, 1⟩], _, .within hscope .nil⟩
        intro span scope behindScope _ hscope _
        refine (single_predicts _ behindScope).andThen ?_ ?_
        · rintro _ ⟨⟩ ⟨closing, rfl⟩
          exact ⟨[], _, .within hscope .nil⟩
        rintro _ ⟨⟩ behindMark _ ⟨closing, rfl⟩ -
        exact (declarations_predicts behindMark).andGive fun back declared hdeclared =>
          .within hscope hdeclared

theorem IsFile.reads {tokens : List Lexed} {tree : Option QualifiedName × List Declaration}
    (h : IsFile tokens tree) : wholly file tokens = .ok (tree, []) := by
  cases h with
  | @plain _ declared hdeclared =>
      have hplain : ∀ lexed ∈ tokens.head?, lexed.token ≠ .keyword .namespaceWord := by
        cases hdeclared with
        | nil => nofun
        | cons hfirst hothers =>
            obtain ⟨first, others, rfl, hword⟩ := hfirst.starts
            rintro lexed ⟨⟩
            exact hword
      rw [file_plain hplain, Reader.andThen_of_ok hdeclared.declarations_append]
      rfl
  | @within line front scope closing back declared hscope hdeclared =>
      have hdot : StartsOff .dot (⟨.mark .semicolon, closing⟩ :: back) :=
        startsOff_mark (by decide) closing back
      rw [file_scoped, Reader.andThen_of_ok (hscope.qualifiedName_append hdot),
        Reader.andThen_of_ok (single_cons _ closing back),
        Reader.andThen_of_ok hdeclared.declarations_append]
      rfl

/-- The readers of the language accept its grammar and nothing else, with the tree of the
derivation. -/
theorem file_eq_ok_iff {tokens : List Lexed} {tree : Option QualifiedName × List Declaration} :
    file tokens = .ok tree ↔ IsFile tokens tree := by
  constructor
  · intro hread
    have hwholly : wholly file tokens = .ok (tree, []) := by
      unfold wholly
      rw [hread]
      rfl
    obtain ⟨span, rfl, hfile, -⟩ := (file_predicts tokens).taken hwholly
    rwa [List.append_nil]
  · intro hfile
    obtain ⟨found, hfound, hsame⟩ := Program.map_eq_ok_iff.mp hfile.reads
    exact hfound.trans (congrArg _ (Prod.mk.inj hsame).1)

/-! ### Sources -/

/-- The token that an item is, with its line, if it is one. -/
def Item.lexed? (item : Item) : Option Lexed :=
  item.content.toOption.map fun token => ⟨token, item.line⟩

/-- The tokens of a text in order. -/
def tokensOf (text : String) : List Lexed :=
  (tokenize text).filterMap Item.lexed?

/-- The first lexeme of a text that is no token. -/
def firstInvalid? (items : List Item) : Option Item :=
  items.find? fun item => !item.content.isOk

/-- Either every lexeme is a token, or the first that is none is the error. -/
theorem validTokens_cases (items : List Item) :
    (firstInvalid? items = none ∧
      Program.validTokens items = .ok (items.filterMap Item.lexed?)) ∨
    ∃ bad chars, firstInvalid? items = some bad ∧ bad.content = .error chars ∧
      Program.validTokens items = .error (chars, bad.line) := by
  unfold Program.validTokens firstInvalid?
  induction items with
  | nil => exact .inl ⟨rfl, rfl⟩
  | cons item items ih =>
      obtain ⟨content, start, stop, line⟩ := item
      rw [List.mapM_cons]
      cases content with
      | error chars => exact .inr ⟨_, chars, rfl, rfl, rfl⟩
      | ok token =>
          rcases ih with ⟨hnone, hvalid⟩ | ⟨bad, chars, hfirst, hbad, hinvalid⟩
          · rw [hvalid]
            exact .inl ⟨hnone, rfl⟩
          · rw [hinvalid]
            exact .inr ⟨bad, chars, hfirst, hbad, rfl⟩

theorem validTokens_eq_ok_iff {items : List Item} {tokens : List Lexed} :
    Program.validTokens items = .ok tokens ↔
      (∀ item ∈ items, item.content.isOk) ∧ tokens = items.filterMap Item.lexed? := by
  have hnone : firstInvalid? items = none ↔ ∀ item ∈ items, item.content.isOk := by
    simp [firstInvalid?]
  rw [← hnone]
  rcases validTokens_cases items with ⟨hvalid, htokens⟩ | ⟨bad, chars, hfirst, -, hinvalid⟩
  · simp [hvalid, htokens, eq_comm]
  · simp [hfirst, hinvalid]

theorem validTokens_eq_error_iff {items : List Item} {chars : String} {line : Nat} :
    Program.validTokens items = .error (chars, line) ↔
      ∃ bad, firstInvalid? items = some bad ∧ bad.content = .error chars ∧ bad.line = line := by
  rcases validTokens_cases items with ⟨hvalid, htokens⟩ | ⟨bad, found, hfirst, hbad, hinvalid⟩
  · simp [hvalid, htokens]
  · simp [hfirst, hbad, hinvalid]

section Parse

variable {source : Source} {scope : Option QualifiedName} {declared : List Declaration}

theorem parse_of_file_ok (hvalid : ∀ item ∈ tokenize source.text, item.content.isOk)
    (hfile : file (tokensOf source.text) = .ok (scope, declared)) :
    Program.parse source = .ok ⟨source.name, scope.map QualifiedName.text, declared⟩ := by
  unfold Program.parse
  rw [validTokens_eq_ok_iff.mpr ⟨hvalid, rfl⟩]
  unfold tokensOf at hfile
  simp only [hfile]

theorem parse_of_file_error {error : SyntaxError}
    (hvalid : ∀ item ∈ tokenize source.text, item.content.isOk)
    (hfile : file (tokensOf source.text) = .error error) :
    Program.parse source = .error (Program.ofSyntaxError source.name error) := by
  unfold Program.parse
  rw [validTokens_eq_ok_iff.mpr ⟨hvalid, rfl⟩]
  unfold tokensOf at hfile
  simp only [hfile]

end Parse

/-- Where every lexeme is a token, the source is read if and only if its tokens are derivable as a
file, and what is read is the tree of the derivation. -/
theorem parse_reads_grammar {source : Source}
    (hvalid : ∀ item ∈ tokenize source.text, item.content.isOk) :
    ((∃ parsed, Program.parse source = .ok parsed) ↔
      ∃ tree, IsFile (tokensOf source.text) tree) ∧
    ∀ scope declared, IsFile (tokensOf source.text) (scope, declared) →
      Program.parse source = .ok ⟨source.name, scope.map QualifiedName.text, declared⟩ := by
  have hreads (scope : Option QualifiedName) (declared : List Declaration)
      (hfile : IsFile (tokensOf source.text) (scope, declared)) :
      Program.parse source = .ok ⟨source.name, scope.map QualifiedName.text, declared⟩ :=
    parse_of_file_ok hvalid (file_eq_ok_iff.mpr hfile)
  refine ⟨⟨?_, ?_⟩, hreads⟩
  · rintro ⟨parsed, hparsed⟩
    cases hfile : file (tokensOf source.text) with
    | error error =>
        rw [parse_of_file_error hvalid hfile] at hparsed
        nomatch hparsed
    | ok tree => exact ⟨tree, file_eq_ok_iff.mp hfile⟩
  · rintro ⟨⟨scope, declared⟩, hfile⟩
    exact ⟨_, hreads scope declared hfile⟩

/-- A file with a namespace, an entry point and a call. -/
theorem parse_reads_grammar_namespace :
    let source : Source :=
      ⟨"a", "namespace A.B;\n@entry\noperation f \x7b\n  call B.g;\n  rz() 1,\n    2;\n\x7d"⟩
    (∀ item ∈ tokenize source.text, item.content.isOk) ∧
      ∃ scope declared, IsFile (tokensOf source.text) (scope, declared) ∧
        scope.map QualifiedName.text = some "A.B" ∧
        declared =
          [⟨"f", true, 3, [⟨.call ⟨some "B", "g"⟩, 4⟩, ⟨.gate ⟨"rz", [], [1, 2]⟩, 5⟩]⟩] := by
  intro source
  have hvalid : ∀ item ∈ tokenize source.text, item.content.isOk := by decide +kernel
  have hparsed : Program.parse source = .ok ⟨"a", some "A.B",
      [⟨"f", true, 3, [⟨.call ⟨some "B", "g"⟩, 4⟩, ⟨.gate ⟨"rz", [], [1, 2]⟩, 5⟩]⟩]⟩ := by
    decide +kernel
  obtain ⟨haccepts, hreads⟩ := parse_reads_grammar hvalid
  obtain ⟨⟨scope, declared⟩, hfile⟩ := haccepts.mp ⟨_, hparsed⟩
  have hsame := Except.ok.inj ((hreads scope declared hfile).symm.trans hparsed)
  obtain ⟨-, hscope, hdeclared⟩ := SourceFile.mk.inj hsame
  exact ⟨hvalid, scope, declared, hfile, hscope, hdeclared⟩

end GateBench.Syntax
