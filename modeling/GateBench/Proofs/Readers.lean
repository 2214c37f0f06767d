import GateBench.Program.Parse
import GateBench.Proofs.Resolution

/-!
Readers that look one token ahead.  `Predicts` says what such a reader owes to a grammar: what it
takes is derivable, and it would take the same before anything that starts alike; the tokens in
front of one that it refuses can be completed, but not with that token; and tokens that end too
early can be completed.  Readers that are put together owe the same to the grammar of the whole.
-/

namespace GateBench.Syntax

variable {α β : Type}

/-- A reader without the bound on what it leaves. -/
abbrev Reader (α : Type) := List Lexed → Except SyntaxError (α × List Lexed)

/-- What was read, and the tokens behind it. -/
def Parsed.pair {bound : Nat} (found : Parsed α bound) : α × List Lexed :=
  (found.value, found.rest)

/-- A reader of the language as a function of its tokens alone. -/
def view {bound : List Lexed → Nat}
    (read : (tokens : List Lexed) → Except SyntaxError (Parsed α (bound tokens))) : Reader α :=
  fun tokens => (read tokens).map Parsed.pair

/-- Read nothing. -/
def Reader.give (value : α) : Reader α :=
  fun tokens => .ok (value, tokens)

/-- Read on behind what the first reader took. -/
def Reader.andThen (first : Reader α) (next : α → Reader β) : Reader β :=
  fun tokens => first tokens >>= fun found => next found.1 found.2

/-- Read one item, and then further ones. -/
def Reader.listOf (item : Reader α) (further : Reader (List α)) : Reader (List α) :=
  item.andThen fun value => further.andThen fun values => .give (value :: values)

theorem Reader.andThen_of_ok {first : Reader α} {next : α → Reader β} {tokens rest : List Lexed}
    {value : α} (hfirst : first tokens = .ok (value, rest)) :
    first.andThen next tokens = next value rest := by
  unfold andThen
  rw [hfirst]
  rfl

theorem Reader.andThen_of_error {first : Reader α} {next : α → Reader β} {tokens : List Lexed}
    {error : SyntaxError} (hfirst : first tokens = .error error) :
    first.andThen next tokens = .error error := by
  unfold andThen
  rw [hfirst]
  rfl

theorem Reader.andThen_assoc {γ : Type} (first : Reader α) (next : α → Reader β)
    (last : β → Reader γ) :
    (first.andThen next).andThen last = first.andThen fun value => (next value).andThen last := by
  funext tokens
  unfold andThen
  cases first tokens <;> rfl

theorem Reader.give_andThen (value : α) (next : α → Reader β) :
    (Reader.give value).andThen next = next value :=
  rfl

/-- Reading on is seen as reading on, whatever is seen of the result. -/
theorem pair_bind {γ : Type} {bound : List Lexed → Nat} {seen : γ → β × List Lexed}
    {read : (tokens : List Lexed) → Except SyntaxError (Parsed α (bound tokens))}
    {tokens : List Lexed} {next : Parsed α (bound tokens) → Except SyntaxError γ}
    {after : α → Reader β}
    (hnext : ∀ found, (next found).map seen = after found.value found.rest) :
    (read tokens >>= next).map seen = (view read).andThen after tokens := by
  unfold view Reader.andThen
  dsimp only
  cases read tokens with
  | error error => rfl
  | ok found => exact hnext found

/-- Reading is seen as it is, whatever bound on the rest it is given. -/
theorem pair_bind_pair {bound : List Lexed → Nat} {length : Nat}
    {read : (tokens : List Lexed) → Except SyntaxError (Parsed α (bound tokens))}
    {tokens : List Lexed} {next : Parsed α (bound tokens) → Except SyntaxError (Parsed α length)}
    (hnext : ∀ found, (next found).map Parsed.pair = .ok found.pair) :
    (read tokens >>= next).map Parsed.pair = view read tokens := by
  unfold view
  cases read tokens with
  | error error => rfl
  | ok found => exact hnext found

theorem exists_of_view {bound : List Lexed → Nat}
    {read : (tokens : List Lexed) → Except SyntaxError (Parsed α (bound tokens))}
    {tokens rest : List Lexed} {value : α} (hread : view read tokens = .ok (value, rest)) :
    ∃ found : Parsed α (bound tokens), found.value = value ∧ found.rest = rest := by
  obtain ⟨found, -, hfound⟩ := Program.map_eq_ok_iff.mp hread
  obtain ⟨rfl, rfl⟩ := Prod.mk.inj hfound
  exact ⟨found, rfl, rfl⟩

theorem length_lt_of_view {bound : List Lexed → Nat}
    {read : (tokens : List Lexed) → Except SyntaxError (Parsed α (bound tokens))}
    {tokens rest : List Lexed} {value : α} (hread : view read tokens = .ok (value, rest)) :
    rest.length < bound tokens := by
  obtain ⟨found, -, rfl⟩ := exists_of_view hread
  exact found.shorter

theorem cons_of_head?_eq {tokens others rest : List Lexed} {lexed : Lexed}
    (hothers : others.head? = tokens.head?) (hcons : others = lexed :: rest) :
    ∃ more, tokens = lexed :: more :=
  List.head?_eq_some_iff.mp (hothers ▸ hcons ▸ rfl)

/-- Some derivation starts with these tokens. -/
def Begins (Derives : List Lexed → α → Prop) (tokens : List Lexed) : Prop :=
  ∃ more value, Derives (tokens ++ more) value

/-- What the reader does on `tokens` is what one token of lookahead tells about a grammar. -/
structure Predicts (read : Reader α) (Derives : List Lexed → α → Prop) (tokens : List Lexed) :
    Prop where
  taken : ∀ {value rest}, read tokens = .ok (value, rest) →
    ∃ span, tokens = span ++ rest ∧ Derives span value ∧
      ∀ other : List Lexed, other.head? = rest.head? → read (span ++ other) = .ok (value, other)
  refused : ∀ {line expectation found},
    read tokens = .error (.unexpected line expectation found) →
      ∃ before after, tokens = before ++ ⟨found, line⟩ :: after ∧ Begins Derives before ∧
        ∀ other, read (before ++ ⟨found, line⟩ :: other) =
          .error (.unexpected line expectation found)
  ended : ∀ {expectation}, read tokens = .error (.endOfInput expectation) → Begins Derives tokens

namespace Predicts

variable {first read : Reader α} {next : α → Reader β} {First Derives : List Lexed → α → Prop}
  {Whole : List Lexed → β → Prop} {tokens : List Lexed}

theorem give {value : α} (hderives : Derives [] value) :
    Predicts (.give value) Derives tokens where
  taken hread := by
    obtain ⟨rfl, rfl⟩ := Prod.mk.inj (Except.ok.inj hread)
    exact ⟨[], rfl, hderives, fun _ _ => rfl⟩
  refused := nofun
  ended := nofun

/-- A reader that decides by the first token may be replaced by what it decides for. -/
theorem of_head {other : Reader α} (read : Reader α) (hread : Predicts read Derives tokens)
    (hsame : ∀ others : List Lexed, others.head? = tokens.head? → other others = read others) :
    Predicts other Derives tokens where
  taken {value rest} hother := by
    rw [hsame tokens rfl] at hother
    obtain ⟨span, rfl, hderives, hlocal⟩ := hread.taken hother
    refine ⟨span, rfl, hderives, fun others hothers => ?_⟩
    rw [hsame _ (by simp [List.head?_append, hothers])]
    exact hlocal others hothers
  refused hother := by
    rw [hsame tokens rfl] at hother
    obtain ⟨before, after, rfl, hbegins, hlocal⟩ := hread.refused hother
    refine ⟨before, after, rfl, hbegins, fun others => ?_⟩
    rw [hsame _ (by simp [List.head?_append])]
    exact hlocal others
  ended hother := by
    rw [hsame tokens rfl] at hother
    exact hread.ended hother

/-- A reader that takes the first token goes on as another one behind it. -/
theorem behind {whole : Reader β} {lexed : Lexed} (next : Reader β)
    (hnext : Predicts next (fun span value => Whole (lexed :: span) value) tokens)
    (hsame : ∀ others : List Lexed, others.head? = tokens.head? →
      whole (lexed :: others) = next others) :
    Predicts whole Whole (lexed :: tokens) where
  taken {value rest} hwhole := by
    rw [hsame tokens rfl] at hwhole
    obtain ⟨span, rfl, hderives, hlocal⟩ := hnext.taken hwhole
    refine ⟨lexed :: span, rfl, hderives, fun others hothers => ?_⟩
    rw [List.cons_append, hsame _ (by simp [List.head?_append, hothers])]
    exact hlocal others hothers
  refused hwhole := by
    rw [hsame tokens rfl] at hwhole
    obtain ⟨before, after, rfl, hbegins, hlocal⟩ := hnext.refused hwhole
    refine ⟨lexed :: before, after, rfl, hbegins, fun others => ?_⟩
    rw [List.cons_append, hsame _ (by simp [List.head?_append])]
    exact hlocal others
  ended hwhole := by
    rw [hsame tokens rfl] at hwhole
    exact hnext.ended hwhole

/-- A reader that takes nothing but the first token. -/
theorem one {value : α} {lexed : Lexed} (hderives : Derives [lexed] value)
    (hread : ∀ others, read (lexed :: others) = .ok (value, others)) :
    Predicts read Derives (lexed :: tokens) :=
  behind (.give value) (give hderives) fun others _ => hread others

/-- A reader that fails at the first token, where something could have stood. -/
theorem expected (expectation : Expectation) (hbegins : Begins Derives [])
    (hread : ∀ others : List Lexed, others.head? = tokens.head? →
      read others = .error (Syntax.expected expectation others)) :
    Predicts read Derives tokens where
  taken hfound := by
    rw [hread tokens rfl] at hfound
    nomatch hfound
  refused hfound := by
    rw [hread tokens rfl] at hfound
    cases tokens with
    | nil => nomatch hfound
    | cons lexed others =>
        obtain ⟨rfl, rfl, rfl⟩ := SyntaxError.unexpected.inj (Except.error.inj hfound)
        exact ⟨[], others, rfl, hbegins, fun more => hread _ rfl⟩
  ended hfound := by
    rw [hread tokens rfl] at hfound
    cases tokens with
    | nil => exact hbegins
    | cons lexed others => nomatch hfound

theorem mono {Other : List Lexed → α → Prop} (hread : Predicts read Derives tokens)
    (hmono : ∀ span value, Derives span value → Other span value) :
    Predicts read Other tokens where
  taken hfound := by
    obtain ⟨span, hspan, hderives, hlocal⟩ := hread.taken hfound
    exact ⟨span, hspan, hmono _ _ hderives, hlocal⟩
  refused hfound := by
    obtain ⟨before, after, hsplit, ⟨more, value, hderives⟩, hlocal⟩ := hread.refused hfound
    exact ⟨before, after, hsplit, ⟨more, value, hmono _ _ hderives⟩, hlocal⟩
  ended hfound := by
    obtain ⟨more, value, hderives⟩ := hread.ended hfound
    exact ⟨more, value, hmono _ _ hderives⟩

/-- Two readers one behind the other.  Whatever the first one derives must be the beginning of a
whole, so that where the first one fails the whole could still have been completed. -/
theorem andThen (hfirst : Predicts first First tokens)
    (hgo : ∀ span value, First span value → Begins Whole span)
    (hnext : ∀ span value rest, tokens = span ++ rest → First span value →
      first tokens = .ok (value, rest) →
        Predicts (next value) (fun more whole => Whole (span ++ more) whole) rest) :
    Predicts (first.andThen next) Whole tokens where
  taken {whole rest} hfound := by
    obtain ⟨⟨value, middle⟩, hvalue, hwhole⟩ := Program.bind_eq_ok_iff.mp hfound
    obtain ⟨span, hspan, hderives, hlocal⟩ := hfirst.taken hvalue
    obtain ⟨more, rfl, hmore, hlater⟩ :=
      (hnext span value middle hspan hderives hvalue).taken hwhole
    refine ⟨span ++ more, by rw [hspan, List.append_assoc], hmore, fun other hother => ?_⟩
    have hsame := hlocal (more ++ other) (by simp [List.head?_append, hother])
    rw [List.append_assoc, Reader.andThen_of_ok hsame]
    exact hlater other hother
  refused {line expectation found} hfound := by
    rcases Program.bind_eq_error_iff.mp hfound with herror | ⟨⟨value, middle⟩, hvalue, herror⟩
    · obtain ⟨before, after, hsplit, ⟨more, value, hderives⟩, hlocal⟩ := hfirst.refused herror
      obtain ⟨others, whole, hwhole⟩ := hgo _ _ hderives
      refine ⟨before, after, hsplit, ⟨more ++ others, whole, ?_⟩, fun other => ?_⟩
      · rwa [← List.append_assoc]
      · exact Reader.andThen_of_error (hlocal other)
    · obtain ⟨span, hspan, hderives, hlocal⟩ := hfirst.taken hvalue
      obtain ⟨before, after, rfl, ⟨more, whole, hwhole⟩, hlater⟩ :=
        (hnext span value middle hspan hderives hvalue).refused herror
      refine ⟨span ++ before, after, by rw [hspan, List.append_assoc], ⟨more, whole, ?_⟩,
        fun other => ?_⟩
      · rwa [List.append_assoc]
      · have hsame := hlocal (before ++ ⟨found, line⟩ :: other) (by simp [List.head?_append])
        rw [List.append_assoc, Reader.andThen_of_ok hsame]
        exact hlater other
  ended hfound := by
    rcases Program.bind_eq_error_iff.mp hfound with herror | ⟨⟨value, middle⟩, hvalue, herror⟩
    · obtain ⟨more, value, hderives⟩ := hfirst.ended herror
      obtain ⟨others, whole, hwhole⟩ := hgo _ _ hderives
      exact ⟨more ++ others, whole, by rwa [← List.append_assoc]⟩
    · obtain ⟨span, rfl, hderives, -⟩ := hfirst.taken hvalue
      obtain ⟨more, whole, hwhole⟩ := (hnext span value middle rfl hderives hvalue).ended herror
      exact ⟨more, whole, by rwa [List.append_assoc]⟩

/-- A value made of what a reader takes. -/
theorem andGive {f : α → β} (hfirst : Predicts first First tokens)
    (hwhole : ∀ span value, First span value → Whole span (f value)) :
    Predicts (first.andThen fun value => .give (f value)) Whole tokens :=
  hfirst.andThen (fun span value hderives => ⟨[], f value, by simpa using hwhole _ _ hderives⟩)
    fun span value rest _ hderives _ => give (by simpa using hwhole _ _ hderives)

end Predicts

/-! ### Single tokens -/

/-- Take one token that `pick` has a value for. -/
def Reader.oneToken (expectation : Expectation) (pick : Token → Option α) : Reader α
  | [] => .error (.endOfInput expectation)
  | lexed :: rest =>
    match pick lexed.token with
    | some value => .ok (value, rest)
    | none => .error (.unexpected lexed.line expectation lexed.token)

/-- One token, which states a value in the given form. -/
def IsToken (form : α → Token) (span : List Lexed) (value : α) : Prop :=
  ∃ line, span = [⟨form value, line⟩]

section OneToken

variable {form : α → Token} {pick : Token → Option α} {expectation : Expectation}

theorem oneToken_predicts [Nonempty α]
    (hpick : ∀ token value, pick token = some value ↔ token = form value) (tokens : List Lexed) :
    Predicts (.oneToken expectation pick) (IsToken form) tokens := by
  obtain ⟨value⟩ := ‹Nonempty α›
  have hbegins : Begins (IsToken form) [] := ⟨[⟨form value, 1⟩], value, 1, rfl⟩
  cases tokens with
  | nil =>
      apply Predicts.expected expectation hbegins
      intro others hothers
      rw [List.head?_eq_none_iff.mp hothers]
      rfl
  | cons lexed rest =>
      obtain ⟨token, line⟩ := lexed
      cases hfound : pick token with
      | some found =>
          apply Predicts.one
          · show IsToken form [⟨token, line⟩] found
            exact ⟨line, by rw [(hpick token found).mp hfound]⟩
          · intro others
            simp only [Reader.oneToken, hfound]
      | none =>
          apply Predicts.expected expectation hbegins
          intro others hothers
          obtain ⟨more, rfl⟩ := List.head?_eq_some_iff.mp hothers
          simp only [Reader.oneToken, hfound, expected]

end OneToken

/-- The value of a token that must be a given one. -/
def Token.same? (wanted token : Token) : Option Unit :=
  if token = wanted then some () else none

/-- The name that an identifier spells. -/
def Token.name? : Token → Option String
  | .identifier name => some name
  | _ => none

/-- The value of a whole number. -/
def Token.index? : Token → Option Nat
  | .whole value => some value
  | _ => none

theorem Token.same?_eq_some_iff (wanted token : Token) (value : Unit) :
    wanted.same? token = some value ↔ token = wanted := by
  simp [same?]

theorem Token.name?_eq_some_iff (token : Token) (name : String) :
    token.name? = some name ↔ token = .identifier name := by
  cases token <;> simp [name?]

theorem Token.index?_eq_some_iff (token : Token) (value : Nat) :
    token.index? = some value ↔ token = .whole value := by
  cases token <;> simp [index?]

theorem view_single (wanted : Token) :
    view (single wanted) = .oneToken (.token wanted) wanted.same? := by
  funext tokens
  cases tokens with
  | nil => rfl
  | cons lexed rest =>
      by_cases hwanted : lexed.token = wanted
      · simp [view, single, Except.map, Parsed.pair, Reader.oneToken, Token.same?, hwanted]
      · simp [view, single, Except.map, Reader.oneToken, Token.same?, hwanted]

theorem view_identifier : view identifier = .oneToken .identifier Token.name? := by
  funext tokens
  cases tokens with
  | nil => rfl
  | cons lexed rest =>
      obtain ⟨token, line⟩ := lexed
      cases token <;> rfl

theorem view_qubitIndex : view qubitIndex = .oneToken .qubitIndex Token.index? := by
  funext tokens
  cases tokens with
  | nil => rfl
  | cons lexed rest =>
      obtain ⟨token, line⟩ := lexed
      cases token <;> rfl

theorem single_predicts (wanted : Token) (tokens : List Lexed) :
    Predicts (view (single wanted)) (IsToken fun _ => wanted) tokens := by
  rw [view_single]
  exact oneToken_predicts wanted.same?_eq_some_iff tokens

theorem identifier_predicts (tokens : List Lexed) :
    Predicts (view identifier) (IsToken .identifier) tokens := by
  rw [view_identifier]
  exact oneToken_predicts Token.name?_eq_some_iff tokens

theorem qubitIndex_predicts (tokens : List Lexed) :
    Predicts (view qubitIndex) (IsToken .whole) tokens := by
  rw [view_qubitIndex]
  exact oneToken_predicts Token.index?_eq_some_iff tokens

theorem single_cons (wanted : Token) (line : Nat) (rest : List Lexed) :
    view (single wanted) (⟨wanted, line⟩ :: rest) = .ok ((), rest) := by
  simp [view, single, Except.map, Parsed.pair]

theorem identifier_of_isToken {span : List Lexed} {name : String}
    (hspan : IsToken .identifier span name) (rest : List Lexed) :
    view identifier (span ++ rest) = .ok (name, rest) := by
  obtain ⟨line, rfl⟩ := hspan
  rfl

theorem qubitIndex_of_isToken {span : List Lexed} {index : Nat}
    (hspan : IsToken .whole span index) (rest : List Lexed) :
    view qubitIndex (span ++ rest) = .ok (index, rest) := by
  obtain ⟨line, rfl⟩ := hspan
  rfl

/-! ### Lists of items between marks -/

/-- One or more items with a mark between each two. -/
inductive Separated (mark : Mark) (Item : List Lexed → α → Prop) : List Lexed → List α → Prop where
  | last {span value} (hitem : Item span value) : Separated mark Item span [value]
  | cons {span value line others values} (hitem : Item span value)
      (hothers : Separated mark Item others values) :
      Separated mark Item (span ++ ⟨.mark mark, line⟩ :: others) (value :: values)

/-- The token at the front, if there is one, is not the given mark. -/
def StartsOff (mark : Mark) (tokens : List Lexed) : Prop :=
  ∀ lexed ∈ tokens.head?, lexed.token ≠ .mark mark

theorem exists_of_not_startsOff {mark : Mark} {tokens : List Lexed}
    (h : ¬ StartsOff mark tokens) : ∃ line rest, tokens = ⟨.mark mark, line⟩ :: rest := by
  cases tokens with
  | nil => exact absurd nofun h
  | cons lexed rest =>
      obtain ⟨token, line⟩ := lexed
      obtain rfl : token = .mark mark := by simpa [StartsOff] using h
      exact ⟨line, rest, rfl⟩

theorem startsOff_mark {mark other : Mark} (hother : other ≠ mark) (line : Nat)
    (rest : List Lexed) : StartsOff mark (⟨.mark other, line⟩ :: rest) := by
  rintro lexed ⟨⟩ hsame
  exact hother (Token.mark.inj hsame)

/-- A reader of the items that follow the first one: as long as a mark is ahead. -/
structure ReadsFurther (mark : Mark) (item : Reader α) (further : Reader (List α)) : Prop where
  stop : ∀ tokens, StartsOff mark tokens → further tokens = .ok ([], tokens)
  more : ∀ line after, further (⟨.mark mark, line⟩ :: after) = Reader.listOf item further after

namespace ReadsFurther

variable {mark : Mark} {item : Reader α} {further : Reader (List α)}
  {Item : List Lexed → α → Prop}

/-- By induction on the tokens, of which each mark leaves fewer. -/
theorem predicts (hfurther : ReadsFurther mark item further)
    (hitem : ∀ tokens, Predicts item Item tokens) (tokens : List Lexed) {span : List Lexed}
    {value : α} (hspan : Item span value) :
    Predicts further (fun more values => Separated mark Item (span ++ more) (value :: values))
      tokens := by
  induction hlength : tokens.length using Nat.strongRecOn generalizing tokens span value with
  | _ length ih =>
    by_cases hstarts : StartsOff mark tokens
    · apply Predicts.of_head (.give []) (.give (by simpa using .last hspan))
      intro others hothers
      exact hfurther.stop others (by rwa [StartsOff, hothers])
    · obtain ⟨line, after, rfl⟩ := exists_of_not_startsOff hstarts
      refine Predicts.behind _ ?_ fun others _ => hfurther.more line others
      refine (hitem after).andThen ?_ ?_
      · intro front first hfirst
        exact ⟨[], [first], by simpa using .cons hspan (.last hfirst)⟩
      · intro front first rest hafter hfirst _
        have hshort : rest.length < length := by
          simp only [← hlength, hafter, List.length_cons, List.length_append]
          omega
        refine (ih rest.length hshort rest hfirst rfl).andGive fun more values hmore => ?_
        exact .cons hspan hmore

theorem listOf_predicts (hfurther : ReadsFurther mark item further)
    (hitem : ∀ tokens, Predicts item Item tokens) (tokens : List Lexed) :
    Predicts (.listOf item further) (Separated mark Item) tokens :=
  (hitem tokens).andThen (fun span value hspan => ⟨[], [value], by simpa using .last hspan⟩)
    fun _ _ rest _ hspan _ => (hfurther.predicts hitem rest hspan).andGive fun _ _ hmore => hmore

/-- A list is read whole where neither a mark nor what goes on an item follows. -/
theorem listOf_of_separated (hfurther : ReadsFurther mark item further) (Ends : List Lexed → Prop)
    (hmark : ∀ line after, Ends (⟨.mark mark, line⟩ :: after))
    (hitem : ∀ span value rest, Item span value → Ends rest →
      item (span ++ rest) = .ok (value, rest))
    {span rest : List Lexed} {values : List α} (hseparated : Separated mark Item span values)
    (hrest : Ends rest) (hstarts : StartsOff mark rest) :
    Reader.listOf item further (span ++ rest) = .ok (values, rest) := by
  induction hseparated with
  | last hspan =>
      unfold Reader.listOf
      rw [Reader.andThen_of_ok (hitem _ _ _ hspan hrest),
        Reader.andThen_of_ok (hfurther.stop rest hstarts)]
      rfl
  | @cons span value line others values hspan hothers ih =>
      have hvalue := hitem _ _ _ hspan (hmark line (others ++ rest))
      have hvalues := (hfurther.more line (others ++ rest)).trans ih
      rw [List.append_assoc, List.cons_append]
      unfold Reader.listOf
      rw [Reader.andThen_of_ok hvalue, Reader.andThen_of_ok hvalues]
      rfl

/-- Items that are read whatever follows them. -/
theorem listOf_append (hfurther : ReadsFurther mark item further)
    (hitem : ∀ span value, Item span value → ∀ rest, item (span ++ rest) = .ok (value, rest))
    {span rest : List Lexed} {values : List α} (hseparated : Separated mark Item span values)
    (hstarts : StartsOff mark rest) :
    Reader.listOf item further (span ++ rest) = .ok (values, rest) :=
  hfurther.listOf_of_separated (fun _ => True) (fun _ _ => trivial)
    (fun span value rest hspan _ => hitem span value hspan rest) hseparated trivial hstarts

end ReadsFurther

end GateBench.Syntax
