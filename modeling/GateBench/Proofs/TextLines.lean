import GateBench.Text.Lines

/-!
Texts of lines, each ended by a line feed.  Lines without line breaks come back from their text.
-/

namespace GateBench.Text

/-- A text without line breaks. -/
def IsOneLine (line : String) : Prop :=
  '\n' ∉ line.toList ∧ '\r' ∉ line.toList

/-- Where a line ends is decided by its first line feed. -/
theorem eq_of_append_feed {line text rest more : List Char} (hline : '\n' ∉ line)
    (htext : '\n' ∉ text) (heq : line ++ '\n' :: rest = text ++ '\n' :: more) :
    line = text ∧ rest = more := by
  induction line generalizing text with
  | nil =>
      cases text with
      | nil => exact ⟨rfl, (List.cons.inj heq).2⟩
      | cons head tail =>
          rw [(List.cons.inj heq).1] at htext
          exact absurd List.mem_cons_self htext
  | cons first others ih =>
      cases text with
      | nil =>
          rw [← (List.cons.inj heq).1] at hline
          exact absurd List.mem_cons_self hline
      | cons head tail =>
          obtain ⟨hfirst, hothers⟩ := List.cons.inj heq
          obtain ⟨rfl, hrest⟩ := ih (List.not_mem_of_not_mem_cons hline)
            (List.not_mem_of_not_mem_cons htext) hothers
          exact ⟨by rw [hfirst], hrest⟩

variable {α : Type} [DecidableEq α] {feed carriage : α}

/-- The characters of a line are gathered until its line feed. -/
theorem splitLinesFrom_append {text : List α} (htext : feed ∉ text) (line : List α)
    (lines : List (List α)) (rest : List α) :
    splitLinesFrom feed carriage line lines (text ++ rest) =
      splitLinesFrom feed carriage (text.reverse ++ line) lines rest := by
  induction text generalizing line with
  | nil => rfl
  | cons c others ih =>
      obtain ⟨hc, hothers⟩ := not_or.mp (mt List.mem_cons.mpr htext)
      simp only [List.cons_append, splitLinesFrom, if_neg (Ne.symm hc), ih hothers]
      simp

/-- The lines in front stay as they are. -/
theorem splitLinesFrom_eq_append (line : List α) (lines : List (List α)) (text : List α) :
    splitLinesFrom feed carriage line lines text =
      lines.reverse ++ splitLinesFrom feed carriage line [] text := by
  induction text generalizing line lines with
  | nil => by_cases hline : line = [] <;> simp [splitLinesFrom, hline]
  | cons c others ih =>
      by_cases hc : c = feed
      · simp only [splitLinesFrom, if_pos hc]
        rw [ih, ih [] [_]]
        simp
      · simp only [splitLinesFrom, if_neg hc]
        exact ih (c :: line) lines

/-- A line ends at its line feed, without a carriage return in front of it. -/
theorem splitLines_feed {line : List α} (hline : feed ∉ line) (rest : List α) :
    splitLines feed carriage (line ++ feed :: rest) =
      (if line.getLast? = some carriage then line.dropLast else line) ::
        splitLines feed carriage rest := by
  rw [splitLines, splitLinesFrom_append hline, List.append_nil]
  simp only [splitLinesFrom, if_true]
  rw [splitLinesFrom_eq_append, splitLines]
  -- the line is kept latest first while it is read
  obtain ⟨reversed, rfl⟩ : ∃ reversed, line = reversed.reverse :=
    ⟨line.reverse, line.reverse_reverse.symm⟩
  rw [List.reverse_reverse]
  cases reversed with
  | nil => simp
  | cons last earlier => by_cases hlast : last = carriage <;> simp [hlast]

/-- What stands behind the last line feed is a line as it is. -/
theorem splitLines_last {line : List α} (hline : feed ∉ line) (hne : line ≠ []) :
    splitLines feed carriage line = [line] := by
  rw [← List.append_nil line, splitLines, splitLinesFrom_append hline]
  simp [splitLinesFrom, hne]

theorem splitLines_unlines {texts : List (List α)}
    (htexts : ∀ text ∈ texts, feed ∉ text ∧ carriage ∉ text) :
    splitLines feed carriage (texts.flatMap (· ++ [feed])) = texts := by
  induction texts with
  | nil => simp [splitLines, splitLinesFrom]
  | cons text others ih =>
      obtain ⟨hfeed, hcarriage⟩ := htexts text List.mem_cons_self
      have hlast : text.getLast? ≠ some carriage := by
        intro hlast
        exact hcarriage (List.mem_of_getLast? hlast)
      rw [List.flatMap_cons, List.append_assoc, List.singleton_append, splitLines_feed hfeed,
        if_neg hlast, ih fun text hmem => htexts text (List.mem_cons_of_mem _ hmem)]

/-- Lines come back from the text in which each of them is followed by a line feed. -/
theorem linesOf_unlines {lines : List String} (hlines : ∀ line ∈ lines, IsOneLine line) :
    linesOf (String.join (lines.map (· ++ "\n"))) = lines := by
  have htext : (String.join (lines.map (· ++ "\n"))).toList =
      (lines.map String.toList).flatMap (· ++ ['\n']) := by
    simp [String.toList_join, List.flatMap_map]
  rw [linesOf, htext, splitLines_unlines]
  · simp
  · simpa [IsOneLine] using hlines

end GateBench.Text
