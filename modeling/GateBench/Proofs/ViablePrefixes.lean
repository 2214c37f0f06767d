import GateBench.Proofs.SourceGrammar

/-!
Where a source is refused.  Tokens are viable as long as a file can come of them.  A source whose
tokens are not viable is refused at the first token that leaves them so; one whose tokens are viable
is refused at its end only; and an invalid lexeme goes before both.
-/

namespace GateBench.Syntax

open Program (ProgramError parse)

/-! ### Viable tokens -/

/-- A file begins with these tokens. -/
def Viable (tokens : List Lexed) : Prop :=
  ∃ more tree, file (tokens ++ more) = .ok tree

/-- No shorter part at the front of the tokens is not viable. -/
structure IsShortestRefused (tokens front : List Lexed) : Prop where
  leads : front <+: tokens
  refused : ¬ Viable front
  shortest : ∀ other, other <+: tokens → ¬ Viable other → front.length ≤ other.length

theorem viable_iff_begins {tokens : List Lexed} : Viable tokens ↔ Begins IsFile tokens := by
  simp only [Viable, Begins, file_eq_ok_iff]

theorem Viable.of_prefix {front tokens : List Lexed} (h : Viable tokens)
    (hfront : front <+: tokens) : Viable front := by
  obtain ⟨back, rfl⟩ := hfront
  obtain ⟨more, tree, hfile⟩ := h
  exact ⟨back ++ more, tree, by rwa [← List.append_assoc]⟩

theorem Viable.isShortestRefused {before : List Lexed} {bad : Lexed} (hbefore : Viable before)
    (hbad : ¬ Viable (before ++ [bad])) (after : List Lexed) :
    IsShortestRefused (before ++ bad :: after) (before ++ [bad]) where
  leads := ⟨after, by simp⟩
  refused := hbad
  shortest other hother hrefused := by
    by_contra hshort
    rw [List.length_append, List.length_singleton, Nat.not_le, Nat.lt_succ_iff] at hshort
    have hfront := List.prefix_of_prefix_length_le hother (List.prefix_append before _) hshort
    exact hrefused (hbefore.of_prefix hfront)

/-! ### Where files are refused -/

theorem wholly_error {α : Type} {read : List Lexed → Except SyntaxError α} {tokens : List Lexed}
    {error : SyntaxError} : wholly read tokens = .error error ↔ read tokens = .error error := by
  unfold wholly
  cases read tokens <;> simp [Except.map]

theorem file_unexpected {tokens : List Lexed} {line : Nat} {expectation : Expectation}
    {found : Token} (hrefused : file tokens = .error (.unexpected line expectation found)) :
    ∃ before after, tokens = before ++ ⟨found, line⟩ :: after ∧ Viable before ∧
      ¬ Viable (before ++ [⟨found, line⟩]) := by
  obtain ⟨before, after, hsplit, hbegins, hlocal⟩ :=
    (file_predicts tokens).refused (wholly_error.mpr hrefused)
  refine ⟨before, after, hsplit, viable_iff_begins.mpr hbegins, ?_⟩
  rintro ⟨more, tree, hfile⟩
  have hsame := wholly_error.mp (hlocal more)
  rw [List.append_assoc, List.singleton_append, hsame] at hfile
  nomatch hfile

theorem file_endOfInput {tokens : List Lexed} {expectation : Expectation}
    (hrefused : file tokens = .error (.endOfInput expectation)) : Viable tokens :=
  viable_iff_begins.mpr ((file_predicts tokens).ended (wholly_error.mpr hrefused))

/-! ### Where sources are refused -/

/-- The error is at the first token that leaves no file to come, or else at the end. -/
structure RefusedEarliest (name : String) (tokens : List Lexed) (error : ProgramError) : Prop where
  unexpected : (∃ location expectation found,
    error = .located location (.unexpectedToken expectation found)) ↔ ¬ Viable tokens
  atToken : ¬ Viable tokens → ∃ before bad expectation,
    IsShortestRefused tokens (before ++ [bad]) ∧
      error = .located ⟨name, bad.line⟩ (.unexpectedToken expectation bad.token)
  atEnd : Viable tokens → (∀ tree, file tokens ≠ .ok tree) ∧
    ∃ expectation, error = .unexpectedEnd name expectation

theorem refusedEarliest_of_file {tokens : List Lexed} {error : SyntaxError} (name : String)
    (hfile : file tokens = .error error) :
    RefusedEarliest name tokens (Program.ofSyntaxError name error) := by
  cases error with
  | unexpected line expectation found =>
      obtain ⟨before, after, rfl, hbefore, hbad⟩ := file_unexpected hfile
      have hshortest := hbefore.isShortestRefused hbad after
      have hrefused : ¬ Viable (before ++ ⟨found, line⟩ :: after) := fun h =>
        hbad (h.of_prefix hshortest.leads)
      exact ⟨⟨fun _ => hrefused, fun _ => ⟨_, _, _, rfl⟩⟩,
        fun _ => ⟨before, ⟨found, line⟩, expectation, hshortest, rfl⟩,
        fun h => absurd h hrefused⟩
  | endOfInput expectation =>
      have hviable := file_endOfInput hfile
      refine ⟨⟨?_, fun h => absurd hviable h⟩, fun h => absurd hviable h, fun _ => ⟨?_, _, rfl⟩⟩
      · rintro ⟨location, other, found, hsame⟩
        nomatch hsame
      · intro tree htree
        nomatch hfile.symm.trans htree

/-- The first invalid lexeme of a source is reported; without one, a source that is refused is
refused at the first token that leaves no file to come, or else at its end. -/
theorem parse_refuses_earliest (source : Source) :
    (∀ bad chars, firstInvalid? (tokenize source.text) = some bad →
      bad.content = .error chars →
        parse source = .error (.located ⟨source.name, bad.line⟩ (.invalidCharacters chars))) ∧
    ((∀ item ∈ tokenize source.text, item.content.isOk) →
      ∀ error, parse source = .error error →
        RefusedEarliest source.name (tokensOf source.text) error) := by
  constructor
  · intro bad chars hfirst hbad
    unfold parse
    rw [validTokens_eq_error_iff.mpr ⟨bad, hfirst, hbad, rfl⟩]
  · intro hvalid error hrefused
    cases hfile : file (tokensOf source.text) with
    | error syntaxError =>
        rw [parse_of_file_error hvalid hfile] at hrefused
        obtain rfl := Except.error.inj hrefused
        exact refusedEarliest_of_file source.name hfile
    | ok tree =>
        rw [parse_of_file_ok hvalid hfile] at hrefused
        nomatch hrefused

/-- A semicolon that is missing is found out at the token behind its place, on the next line, and an
invalid character where it stands. -/
theorem parse_refuses_earliest_semicolon :
    let unclosed : Source := ⟨"a", "operation f \x7b\n  x 0\n  y 1;\n\x7d"⟩
    let garbled : Source := ⟨"b", "operation\n# f $"⟩
    (¬ Viable (tokensOf unclosed.text) ∧ parse unclosed = .error
      (.located ⟨"a", 3⟩ (.unexpectedToken (.token (.mark .semicolon)) (.identifier "y")))) ∧
    parse garbled = .error (.located ⟨"b", 2⟩ (.invalidCharacters "#")) := by
  intro unclosed garbled
  have hvalid : ∀ item ∈ tokenize unclosed.text, item.content.isOk := by decide +kernel
  have hrefused : parse unclosed = .error
      (.located ⟨"a", 3⟩ (.unexpectedToken (.token (.mark .semicolon)) (.identifier "y"))) := by
    decide +kernel
  have hfound : (firstInvalid? (tokenize garbled.text)).map
      (fun item => (item.content, item.line)) = some (.error "#", 2) := by decide +kernel
  obtain ⟨bad, hfirst, hbad⟩ := Option.map_eq_some_iff.mp hfound
  obtain ⟨hcontent, hline⟩ := Prod.mk.inj hbad
  have hearliest := (parse_refuses_earliest unclosed).2 hvalid _ hrefused
  refine ⟨⟨hearliest.unexpected.mp ⟨_, _, _, rfl⟩, hrefused⟩, ?_⟩
  rw [← hline]
  exact (parse_refuses_earliest garbled).1 bad "#" hfirst hcontent

end GateBench.Syntax
