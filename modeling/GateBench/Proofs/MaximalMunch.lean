import GateBench.Proofs.LongestMatch

/-!
The scanner covers its text.  The items that it finds stand one behind the other where the text has
them, each of them the longest match at its place; and between them are only blank runs and
comments, which are the longest matches at their places too.
-/

namespace GateBench.Syntax

/-! ### Bytes and pieces -/

theorem byteSize_append (front back : List Char) :
    byteSize (front ++ back) = byteSize front + byteSize back := by
  have hfold (chars : List Char) (size : Nat) :
      chars.foldl (fun size c => size + c.utf8Size) size = size + byteSize chars := by
    induction chars generalizing size with
    | nil => rfl
    | cons c chars ih =>
        unfold byteSize
        rw [List.foldl_cons, List.foldl_cons, ih, ih (0 + c.utf8Size)]
        omega
  rw [byteSize, List.foldl_append, hfold]
  rfl

theorem byteSize_pos {chars : List Char} (hsome : chars ≠ []) : 0 < byteSize chars := by
  obtain ⟨c, rest, rfl⟩ := List.exists_cons_of_ne_nil hsome
  have hfirst : byteSize (c :: rest) = byteSize [c] + byteSize rest := byteSize_append [c] rest
  have hsize : byteSize [c] = c.utf8Size := Nat.zero_add _
  have hpos := c.utf8Size_pos
  omega

theorem IsLongestMatch.ne_nil {text chars : List Char} {pattern : Pattern}
    (h : IsLongestMatch text chars pattern) : chars ≠ [] := by
  obtain ⟨c, rest, rfl, -⟩ := Pattern.starts_of_mem h.matched
  nofun

theorem IsLexeme.leads {text chars : List Char} {lexeme : Lexeme}
    (h : IsLexeme text chars lexeme) : chars <+: text := by
  cases h with
  | blank hmatch | comment hmatch | keyword hmatch | pointed hmatch | scientific hmatch
  | whole hmatch | tooLarge hmatch | name hmatch | mark hmatch => exact hmatch.leads
  | unknown htext => exact htext ▸ List.prefix_append _ _

theorem IsLexeme.ne_nil {text chars : List Char} {lexeme : Lexeme}
    (h : IsLexeme text chars lexeme) : chars ≠ [] := by
  cases h with
  | blank hmatch | comment hmatch | keyword hmatch | pointed hmatch | scientific hmatch
  | whole hmatch | tooLarge hmatch | name hmatch | mark hmatch => exact hmatch.ne_nil
  | unknown => nofun

/-! ### Items in their text -/

/-- What an item holds of a lexeme that is not skipped. -/
inductive IsContent (chars : List Char) : Lexeme → Except String Token → Prop where
  | token {token} : IsContent chars (.token token) (.ok token)
  | invalid : IsContent chars .invalid (.error (String.ofList chars))

/-- The item is the lexeme that stands between `before` and `after`. -/
structure Item.StandsBetween (item : Item) (before chars after : List Char) : Prop where
  content : ∃ lexeme, IsLexeme (chars ++ after) chars lexeme ∧ IsContent chars lexeme item.content
  start : item.start = byteSize before
  stop : item.stop = byteSize (before ++ chars)
  line : item.line = 1 + before.count '\n'

/-- Blank runs and comments in front of `after`, each of them the lexeme at its place. -/
inductive Skipped : List Char → List Char → Prop where
  | nil {after} : Skipped [] after
  | snoc {gap piece after lexeme} (hgap : Skipped gap (piece ++ after))
      (hpiece : IsLexeme (piece ++ after) piece lexeme)
      (hskipped : lexeme = .blank ∨ lexeme = .comment) : Skipped (gap ++ piece) after

/-- Nothing but blank runs and comments stands between the two places in the text. -/
def IsGap (text : List Char) (start stop : Nat) : Prop :=
  ∃ before gap after, text = before ++ gap ++ after ∧ start = byteSize before ∧
    stop = byteSize (before ++ gap) ∧ Skipped gap after

/-- The items of a text: in order and apart from each other, each where it stands, with gaps in
front of the first one, between each two, and behind the last one. -/
structure IsLexing (text : List Char) (items : List Item) : Prop where
  ordered : items.Pairwise fun first second => first.stop ≤ second.start
  stands : ∀ item ∈ items, item.start < item.stop ∧ ∃ before chars after,
    text = before ++ chars ++ after ∧ item.StandsBetween before chars after
  gaps : List.Forall₂ (IsGap text) (0 :: items.map Item.stop)
    (items.map Item.start ++ [byteSize text])

/-! ### One walk over the text -/

/-- The items behind `before` in a text that goes on with `chars`, lexeme by lexeme. -/
inductive Walks : (before chars : List Char) → List Item → Prop where
  | done {before} : Walks before [] []
  | skip {before piece after lexeme items} (hpiece : IsLexeme (piece ++ after) piece lexeme)
      (hskipped : lexeme = .blank ∨ lexeme = .comment)
      (hwalks : Walks (before ++ piece) after items) : Walks before (piece ++ after) items
  | item {before piece after item items} (hitem : item.StandsBetween before piece after)
      (hwalks : Walks (before ++ piece) after items) :
      Walks before (piece ++ after) (item :: items)

theorem longest_split (c : Char) (rest : List Char) :
    ∃ piece after lexeme, c :: rest = piece ++ after ∧ longest c rest = (lexeme, piece) ∧
      IsLexeme (piece ++ after) piece lexeme ∧ rest.drop (piece.length - 1) = after := by
  have hlexeme := longest_isLexeme c rest
  obtain ⟨after, hsplit⟩ := hlexeme.leads
  refine ⟨(longest c rest).2, after, (longest c rest).1, hsplit.symm, rfl, ?_, ?_⟩
  · rwa [hsplit]
  · obtain ⟨first, others, hpiece⟩ := List.exists_cons_of_ne_nil hlexeme.ne_nil
    rw [hpiece] at hsplit ⊢
    obtain ⟨-, rfl⟩ := List.cons.inj hsplit
    simp

/-- By induction on what is left of the text; the invariant is that the byte and the line are those
of what is behind. -/
theorem scanFrom_walks (before : List Char) (found : Array Item) (chars : List Char) :
    ∃ items, (scanFrom (byteSize before) (1 + before.count '\n') found chars).toList =
      found.toList ++ items ∧ Walks before chars items := by
  induction hlength : chars.length using Nat.strongRecOn
    generalizing before found chars with
  | _ length ih =>
    cases chars with
    | nil =>
        rw [scanFrom]
        exact ⟨[], by simp, .done⟩
    | cons c rest =>
        obtain ⟨piece, after, lexeme, hsplit, hlongest, hlexeme, hafter⟩ := longest_split c rest
        have hshort : after.length < length := by
          have hpos := List.length_pos_of_ne_nil hlexeme.ne_nil
          rw [← hlength, hsplit, List.length_append]
          omega
        have hline : 1 + before.count '\n' + piece.count '\n' =
            1 + (before ++ piece).count '\n' := by
          rw [List.count_append, Nat.add_assoc]
        have hnext (found : Array Item) := ih after.length hshort (before ++ piece) found after rfl
        rw [scanFrom]
        simp only [hlongest, hafter, hline, ← byteSize_append]
        rw [hsplit]
        cases lexeme with
        | blank =>
            obtain ⟨items, hitems, hwalks⟩ := hnext found
            exact ⟨items, hitems, .skip hlexeme (.inl rfl) hwalks⟩
        | comment =>
            obtain ⟨items, hitems, hwalks⟩ := hnext found
            exact ⟨items, hitems, .skip hlexeme (.inr rfl) hwalks⟩
        | token token =>
            obtain ⟨items, hitems, hwalks⟩ := hnext (found.push
              ⟨.ok token, byteSize before, byteSize (before ++ piece), 1 + before.count '\n'⟩)
            refine ⟨_ :: items, by simpa using hitems, .item ?_ hwalks⟩
            exact ⟨⟨_, hlexeme, .token⟩, rfl, rfl, rfl⟩
        | invalid =>
            obtain ⟨items, hitems, hwalks⟩ := hnext (found.push
              ⟨.error (String.ofList piece), byteSize before, byteSize (before ++ piece),
                1 + before.count '\n'⟩)
            refine ⟨_ :: items, by simpa using hitems, .item ?_ hwalks⟩
            exact ⟨⟨_, hlexeme, .invalid⟩, rfl, rfl, rfl⟩

theorem tokenize_walks (text : String) : Walks [] text.toList (tokenize text) := by
  obtain ⟨items, hitems, hwalks⟩ := scanFrom_walks [] #[] text.toList
  have htokenize : tokenize text = items := hitems
  rwa [htokenize]

/-! ### What a walk leaves behind -/

theorem Item.StandsBetween.start_lt_stop {item : Item} {before chars after : List Char}
    (h : item.StandsBetween before chars after) : item.start < item.stop := by
  obtain ⟨lexeme, hlexeme, -⟩ := h.content
  have hpos := byteSize_pos hlexeme.ne_nil
  rw [h.start, h.stop, byteSize_append]
  omega

namespace Walks

variable {before chars : List Char} {items : List Item}

theorem ordered (h : Walks before chars items) :
    (∀ item ∈ items, byteSize before ≤ item.start) ∧
      items.Pairwise fun first second => first.stop ≤ second.start := by
  induction h with
  | done => exact ⟨nofun, .nil⟩
  | @skip before piece after lexeme items hpiece hskipped hwalks ih =>
      refine ⟨fun item hitem => ?_, ih.2⟩
      have hbehind := ih.1 item hitem
      rw [byteSize_append] at hbehind
      omega
  | @item before piece after item items hitem hwalks ih =>
      obtain ⟨hbehind, hordered⟩ := ih
      refine ⟨List.forall_mem_cons.mpr ⟨hitem.start.ge, fun other hother => ?_⟩, .cons ?_ hordered⟩
      · have hother := hbehind other hother
        rw [byteSize_append] at hother
        omega
      · intro other hother
        rw [hitem.stop]
        exact hbehind other hother

theorem stands (h : Walks before chars items) :
    ∀ item ∈ items, ∃ front piece after, before ++ chars = front ++ piece ++ after ∧
      item.StandsBetween front piece after := by
  induction h with
  | done => nofun
  | skip hpiece hskipped hwalks ih =>
      intro item hitem
      rw [← List.append_assoc]
      exact ih item hitem
  | @item before piece after item items hitem hwalks ih =>
      rw [← List.append_assoc]
      exact List.forall_mem_cons.mpr ⟨⟨before, piece, after, rfl, hitem⟩, ih⟩

/-- The gap that is open goes back to the item in front of it. -/
theorem gaps (h : Walks before chars items) (front gap : List Char)
    (hbefore : before = front ++ gap) (hgap : Skipped gap chars) :
    List.Forall₂ (IsGap (before ++ chars)) (byteSize front :: items.map Item.stop)
      (items.map Item.start ++ [byteSize (before ++ chars)]) := by
  induction h generalizing front gap with
  | @done before =>
      rw [List.append_nil]
      refine .cons ⟨front, gap, [], ?_, rfl, ?_, hgap⟩ .nil
      · rw [hbefore, List.append_nil]
      · rw [hbefore]
  | @skip before piece after lexeme items hpiece hskipped hwalks ih =>
      rw [← List.append_assoc]
      exact ih front (gap ++ piece) (by rw [hbefore, List.append_assoc])
        (.snoc hgap hpiece hskipped)
  | @item before piece after item items hitem hwalks ih =>
      rw [← List.append_assoc]
      have hrest := ih (before ++ piece) [] (by rw [List.append_nil]) .nil
      rw [← hitem.stop] at hrest
      refine .cons ⟨front, gap, piece ++ after, ?_, rfl, ?_, hgap⟩ hrest
      · rw [← hbefore, List.append_assoc]
      · rw [← hbefore, hitem.start]

end Walks

theorem tokenize_stands {text : String} {item : Item} (hitem : item ∈ tokenize text) :
    ∃ before chars after, text.toList = before ++ chars ++ after ∧
      item.StandsBetween before chars after :=
  (tokenize_walks text).stands item hitem

/-- Every text is split into the longest matches from its front to its end. -/
theorem tokenize_isLexing (text : String) : IsLexing text.toList (tokenize text) := by
  have hwalks := tokenize_walks text
  refine ⟨hwalks.ordered.2, fun item hitem => ?_, hwalks.gaps [] [] rfl .nil⟩
  obtain ⟨before, chars, after, hsplit, hstands⟩ := tokenize_stands hitem
  exact ⟨hstands.start_lt_stop, before, chars, after, hsplit, hstands⟩

end GateBench.Syntax
