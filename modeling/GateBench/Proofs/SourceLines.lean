import GateBench.Proofs.ReadNames
import GateBench.Proofs.ViablePrefixes

/-!
Lines of a text.  An item stands on a line of its text, and whatever a reader says of a line, it has
from one of the tokens that it was given.
-/

namespace GateBench

/-- A source has a line: they are counted from one, and each line feed begins another one. -/
def Source.HasLine (source : Source) (line : Nat) : Prop :=
  1 ≤ line ∧ line ≤ 1 + source.text.toList.count '\n'

namespace Syntax

variable {tokens span : List Lexed}

/-! ### Lines of items -/

theorem tokenize_line {source : Source} {item : Item} (hitem : item ∈ tokenize source.text) :
    source.HasLine item.line := by
  obtain ⟨before, chars, after, hsplit, hstands⟩ := tokenize_stands hitem
  rw [Source.HasLine, hstands.line, hsplit, List.append_assoc, List.count_append]
  omega

/-! ### Where a syntax error stands -/

/-- A syntax error that finds a token finds one of the given ones, on its line. -/
def SyntaxError.IsAmong (tokens : List Lexed) : SyntaxError → Prop
  | .unexpected line _ found => ⟨found, line⟩ ∈ tokens
  | .endOfInput _ => True

/-- A file is refused at one of its tokens, or at its end. -/
theorem file_failsAmong (tokens : List Lexed) :
    ∀ error, file tokens = .error error → error.IsAmong tokens := by
  intro error hrefused
  cases error with
  | unexpected line expectation found =>
      obtain ⟨before, after, rfl, -⟩ := file_unexpected hrefused
      exact List.mem_append_right before List.mem_cons_self
  | endOfInput expectation => trivial

/-! ### Lines of statements and operations -/

/-- A line on which one of the tokens stands. -/
def OnLine (tokens : List Lexed) (line : Nat) : Prop :=
  ∃ lexed ∈ tokens, lexed.line = line

theorem OnLine.mono {part : List Lexed} {line : Nat} (hline : OnLine part line)
    (hpart : part <:+: tokens) : OnLine tokens line :=
  hline.imp fun _ hlexed => hlexed.imp_left (hpart.subset ·)

theorem IsStatement.onLine {done : Statement} (h : IsStatement span done) :
    OnLine span done.line := by
  cases h
  exact ⟨_, List.mem_cons_self, rfl⟩

theorem IsOperation.onLine {isEntry : Bool} {declared : Declaration}
    (h : IsOperation isEntry span declared) : OnLine span declared.line := by
  cases h
  exact ⟨_, List.mem_cons_self, rfl⟩

/-- An operation and its statements stand on lines of the tokens it is read from. -/
theorem IsDeclaration.onLine {declared : Declaration} (h : IsDeclaration span declared) :
    OnLine span declared.line ∧ ∀ statement ∈ declared.body, OnLine span statement.line := by
  constructor
  · cases h with
    | unmarked h => exact h.onLine
    | marked h => exact h.onLine.mono (List.suffix_cons _ _).isInfix
  · intro statement hstatement
    obtain ⟨part, hpart, hitem⟩ := h.exists_infix statement hstatement
    exact hitem.onLine.mono hpart

theorem file_onLine {scope : Option QualifiedName} {found : List Declaration}
    (hread : file tokens = .ok (scope, found)) :
    ∀ declared ∈ found, OnLine tokens declared.line ∧
      ∀ statement ∈ declared.body, OnLine tokens statement.line := by
  intro declared hdeclared
  obtain ⟨part, hpart, hdeclaration⟩ := file_exists_infix hread declared hdeclared
  obtain ⟨hline, hbody⟩ := hdeclaration.onLine
  exact ⟨hline.mono hpart, fun statement hstatement => (hbody statement hstatement).mono hpart⟩

end Syntax

end GateBench
