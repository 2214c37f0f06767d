import GateBench.Proofs.Readers

/-!
The grammar of angles in layers, one for each strength of binding:

    angle   := term { ("+" | "-") term }
    term    := operand { ("*" | "/") operand }
    operand := "-" operand | NUMBER | pi | "(" angle ")"

Operators of a layer group to the left, and parentheses leave no node.  Climbing by binding strength
reads this grammar: where no operator follows, it takes exactly the angles.
-/

namespace GateBench.Syntax

/-! ### The grammar -/

/-- The signs between the operands of a term. -/
inductive IsTermSign : Token → Operator → Prop where
  | times : IsTermSign (.mark .star) .multiply
  | over : IsTermSign (.mark .slash) .divide

/-- The signs between the terms of an angle. -/
inductive IsAngleSign : Token → Operator → Prop where
  | plus : IsAngleSign (.mark .plus) .add
  | minus : IsAngleSign (.mark .minus) .subtract

mutual

/-- `operand := "-" operand | NUMBER | pi | "(" angle ")"` -/
inductive IsOperand : List Lexed → Expression → Prop where
  | negate {line span inner} (hinner : IsOperand span inner) :
      IsOperand (⟨.mark .minus, line⟩ :: span) (.negate inner)
  | whole {line value} : IsOperand [⟨.whole value, line⟩] (.number (Number.nearest value 1))
  | decimal {line value} : IsOperand [⟨.decimal value, line⟩] (.number value)
  | pi {line} : IsOperand [⟨.keyword .piWord, line⟩] .pi
  | parens {opening closing span inner} (hinner : IsAngle span inner) :
      IsOperand (⟨.mark .leftParen, opening⟩ :: (span ++ [⟨.mark .rightParen, closing⟩])) inner

/-- `term := operand { ("*" | "/") operand }` -/
inductive IsTerm : List Lexed → Expression → Prop where
  | operand {span value} (hoperand : IsOperand span value) : IsTerm span value
  | sign {front left token operator line back right} (hleft : IsTerm front left)
      (hsign : IsTermSign token operator) (hright : IsOperand back right) :
      IsTerm (front ++ ⟨token, line⟩ :: back) (.binary operator left right)

/-- `angle := term { ("+" | "-") term }` -/
inductive IsAngle : List Lexed → Expression → Prop where
  | term {span value} (hterm : IsTerm span value) : IsAngle span value
  | sign {front left token operator line back right} (hleft : IsAngle front left)
      (hsign : IsAngleSign token operator) (hright : IsTerm back right) :
      IsAngle (front ++ ⟨token, line⟩ :: back) (.binary operator left right)

end

/-! ### Layers by binding strength -/

/-- What may stand beside an operator of the strength below `least`, or be made by one of strength
`least` and more. -/
def IsLayer : Nat → List Lexed → Expression → Prop
  | 0 | 1 => IsAngle
  | 2 => IsTerm
  | _ => IsOperand

theorem IsLayer.of_operand {span : List Lexed} {value : Expression} (h : IsOperand span value)
    (least : Nat) : IsLayer least span value := by
  match least with
  | 0 | 1 => exact .term (.operand h)
  | 2 => exact .operand h
  | _ + 3 => exact h

theorem IsLayer.mono {least most : Nat} {span : List Lexed} {value : Expression}
    (h : IsLayer most span value) (hle : least ≤ most) : IsLayer least span value := by
  match most, least, hle with
  | 0, 0, _ | 1, 0, _ | 1, 1, _ | 2, 2, _ => exact h
  | 2, 0, _ | 2, 1, _ => exact .term h
  | _ + 3, least, _ => exact of_operand h least

theorem IsTermSign.ofToken? {token : Token} {operator : Operator}
    (hsign : IsTermSign token operator) :
    Operator.ofToken? token = some operator ∧ operator.precedence = 2 := by
  cases hsign <;> exact ⟨rfl, rfl⟩

theorem IsAngleSign.ofToken? {token : Token} {operator : Operator}
    (hsign : IsAngleSign token operator) :
    Operator.ofToken? token = some operator ∧ operator.precedence = 1 := by
  cases hsign <;> exact ⟨rfl, rfl⟩

theorem Operator.sign_of_ofToken? {token : Token} {operator : Operator}
    (hoperator : ofToken? token = some operator) :
    operator.precedence = 2 ∧ IsTermSign token operator ∨
      operator.precedence = 1 ∧ IsAngleSign token operator := by
  unfold ofToken? at hoperator
  split at hoperator
  · obtain rfl := Option.some.inj hoperator
    exact .inr ⟨rfl, .plus⟩
  · obtain rfl := Option.some.inj hoperator
    exact .inr ⟨rfl, .minus⟩
  · obtain rfl := Option.some.inj hoperator
    exact .inl ⟨rfl, .times⟩
  · obtain rfl := Option.some.inj hoperator
    exact .inl ⟨rfl, .over⟩
  · nomatch hoperator

/-- An operator makes a part of its layer from one of its layer and one of the next. -/
theorem IsLayer.binary {front back : List Lexed} {left right : Expression} {token : Token}
    {operator : Operator} (line : Nat) (hoperator : Operator.ofToken? token = some operator)
    (hleft : IsLayer operator.precedence front left)
    (hright : IsLayer (operator.precedence + 1) back right) :
    IsLayer operator.precedence (front ++ ⟨token, line⟩ :: back)
      (.binary operator left right) := by
  rcases Operator.sign_of_ofToken? hoperator with ⟨hstrength, hsign⟩ | ⟨hstrength, hsign⟩
  · rw [hstrength] at hleft hright ⊢
    exact .sign hleft hsign hright
  · rw [hstrength] at hleft hright ⊢
    exact .sign hleft hsign hright

/-! ### One step of climbing -/

/-- The strengths of the operator at the front, if there is one, are among the given ones. -/
def OperatorAhead (allowed : Nat → Prop) (tokens : List Lexed) : Prop :=
  ∀ lexed ∈ tokens.head?, ∀ operator, Operator.ofToken? lexed.token = some operator →
    allowed operator.precedence

theorem view_climb (least : Nat) :
    view (climb least) = (view operand).andThen fun left => view (extend least left) := by
  funext tokens
  unfold view
  rw [climb]
  exact pair_bind fun left => pair_bind_pair fun whole => rfl

theorem extend_of_operatorAhead {least : Nat} {tokens : List Lexed} (left : Expression)
    (hahead : OperatorAhead (· < least) tokens) :
    view (extend least left) tokens = .ok (left, tokens) := by
  unfold view
  cases tokens with
  | nil => rw [extend]; rfl
  | cons lexed after =>
      cases hoperator : Operator.ofToken? lexed.token with
      | none =>
          rw [extend, hoperator]
          rfl
      | some operator =>
          have hlooser : operator.precedence < least := hahead lexed rfl operator hoperator
          rw [extend, hoperator]
          simp only [hlooser, if_true]
          rfl

theorem extend_cons {least : Nat} {token : Token} {operator : Operator} (left : Expression)
    (line : Nat) (after : List Lexed) (hoperator : Operator.ofToken? token = some operator)
    (hleast : least ≤ operator.precedence) :
    view (extend least left) (⟨token, line⟩ :: after) =
      ((view (climb (operator.precedence + 1))).andThen fun right =>
        view (extend least (.binary operator left right))) after := by
  unfold view
  rw [extend, hoperator]
  simp only [Nat.not_lt.mpr hleast, if_false]
  exact pair_bind fun right => pair_bind_pair fun whole => rfl

theorem operand_minus (line : Nat) (rest : List Lexed) :
    view operand (⟨.mark .minus, line⟩ :: rest) =
      ((view operand).andThen fun inner => .give (.negate inner)) rest := by
  unfold view
  rw [operand]
  exact pair_bind fun inner => rfl

theorem operand_whole (line value : Nat) (rest : List Lexed) :
    view operand (⟨.whole value, line⟩ :: rest) =
      .ok (.number (Number.nearest value 1), rest) := by
  unfold view
  rw [operand]
  rfl

theorem operand_decimal (line : Nat) (value : Float) (rest : List Lexed) :
    view operand (⟨.decimal value, line⟩ :: rest) = .ok (.number value, rest) := by
  unfold view
  rw [operand]
  rfl

theorem operand_pi (line : Nat) (rest : List Lexed) :
    view operand (⟨.keyword .piWord, line⟩ :: rest) = .ok (.pi, rest) := by
  unfold view
  rw [operand]
  rfl

theorem operand_rightParen (line : Nat) (rest : List Lexed) :
    view operand (⟨.mark .rightParen, line⟩ :: rest) =
      .error (.unexpected line .expression (.mark .rightParen)) := by
  unfold view
  rw [operand]
  · rfl
  all_goals simp

theorem operand_leftParen (line : Nat) (rest : List Lexed) :
    view operand (⟨.mark .leftParen, line⟩ :: rest) =
      ((view (climb 0)).andThen fun inner =>
        (view (single (.mark .rightParen))).andThen fun _ => .give inner) rest := by
  unfold view
  rw [operand]
  exact pair_bind fun inner => pair_bind fun closing => rfl

/-! ### What climbing takes -/

/-- Climbing stops in front of an operator that binds looser, by induction on the tokens. -/
theorem extend_stops {least : Nat} {left whole : Expression} {tokens rest : List Lexed}
    (hread : view (extend least left) tokens = .ok (whole, rest)) :
    OperatorAhead (· < least) rest := by
  induction hlength : tokens.length using Nat.strongRecOn generalizing left tokens with
  | _ length ih =>
    by_cases hahead : OperatorAhead (· < least) tokens
    · rw [extend_of_operatorAhead left hahead] at hread
      obtain ⟨-, rfl⟩ := Prod.mk.inj (Except.ok.inj hread)
      exact hahead
    · cases tokens with
      | nil => exact absurd nofun hahead
      | cons lexed after =>
          obtain ⟨token, line⟩ := lexed
          obtain ⟨operator, hoperator, hleast⟩ : ∃ operator,
              Operator.ofToken? token = some operator ∧ least ≤ operator.precedence := by
            simpa [OperatorAhead] using hahead
          rw [extend_cons left line after hoperator hleast] at hread
          obtain ⟨⟨right, middle⟩, hright, hwhole⟩ := Program.bind_eq_ok_iff.mp hread
          have hshorter : middle.length < after.length := length_lt_of_view hright
          exact ih middle.length (by simp only [← hlength, List.length_cons]; omega) hwhole rfl

theorem climb_stops {least : Nat} {whole : Expression} {tokens rest : List Lexed}
    (hread : view (climb least) tokens = .ok (whole, rest)) :
    OperatorAhead (· < least) rest := by
  rw [view_climb] at hread
  obtain ⟨⟨left, middle⟩, -, hwhole⟩ := Program.bind_eq_ok_iff.mp hread
  exact extend_stops hwhole

/-- What is read so far may stand on the left of the operator that follows, if climbing takes it. -/
def Grips (least : Nat) (front : List Lexed) (left : Expression) (tokens : List Lexed) : Prop :=
  IsLayer least front left ∧
    OperatorAhead (fun strength => least ≤ strength → IsLayer strength front left) tokens

theorem Grips.of_operand {front : List Lexed} {left : Expression} (hleft : IsOperand front left)
    (least : Nat) (tokens : List Lexed) : Grips least front left tokens :=
  ⟨.of_operand hleft least, fun _ _ _ _ _ => .of_operand hleft _⟩

/-- After its right operand, an operator and what it binds stand on the left of the next one: the
right operand has taken every operator that binds tighter. -/
theorem Grips.binary {least line : Nat} {front back rest after : List Lexed}
    {left right : Expression} {token : Token} {operator : Operator}
    (hgrips : Grips least front left (⟨token, line⟩ :: after))
    (hoperator : Operator.ofToken? token = some operator) (hleast : least ≤ operator.precedence)
    (hback : IsLayer (operator.precedence + 1) back right)
    (hright : view (climb (operator.precedence + 1)) after = .ok (right, rest)) :
    Grips least (front ++ ⟨token, line⟩ :: back) (.binary operator left right) rest := by
  have hleft := hgrips.2 ⟨token, line⟩ rfl operator hoperator hleast
  have hwhole := IsLayer.binary line hoperator hleft hback
  refine ⟨hwhole.mono hleast, fun lexed hlexed later hlater _ => hwhole.mono ?_⟩
  exact Nat.le_of_lt_succ (climb_stops hright lexed hlexed later hlater)

theorem extend_predicts_of_operatorAhead {least : Nat} {front tokens : List Lexed}
    {left : Expression} (hleft : IsLayer least front left)
    (hahead : OperatorAhead (· < least) tokens) :
    Predicts (view (extend least left)) (fun more whole => IsLayer least (front ++ more) whole)
      tokens := by
  refine Predicts.of_head (.give left) (.give (by simpa using hleft)) fun others hothers => ?_
  exact extend_of_operatorAhead left (by rwa [OperatorAhead, hothers])

/-- The readers of angles call each other, so what they owe to the grammar is shown of all three at
once.  What `extend` takes makes a part of its layer together with what was read before. -/
theorem expression_predicts :
    (∀ tokens, Predicts (view operand) IsOperand tokens) ∧
    (∀ least tokens, Predicts (view (climb least)) (IsLayer least) tokens) ∧
    ∀ least left tokens, ∀ front, Grips least front left tokens →
      Predicts (view (extend least left)) (fun more whole => IsLayer least (front ++ more) whole)
        tokens := by
  refine operand.mutual_induct
    (fun tokens => Predicts (view operand) IsOperand tokens)
    (fun least tokens => Predicts (view (climb least)) (IsLayer least) tokens)
    (fun least left tokens => ∀ front, Grips least front left tokens →
      Predicts (view (extend least left)) (fun more whole => IsLayer least (front ++ more) whole)
        tokens)
    ?sign ?whole ?decimal ?pi ?parens ?noOperand ?climbs ?atEnd ?noOperator ?looser ?operator
  case sign =>
    intro line rest ih
    refine Predicts.behind _ ?_ fun others _ => operand_minus line others
    exact ih.andGive fun span inner hinner => .negate hinner
  case whole =>
    intro line value rest
    exact Predicts.one .whole (operand_whole value line)
  case decimal =>
    intro line value rest
    exact Predicts.one .decimal (operand_decimal value line)
  case pi =>
    intro line rest
    exact Predicts.one .pi (operand_pi line)
  case parens =>
    intro line rest ih
    refine Predicts.behind _ ?_ fun others _ => operand_leftParen line others
    refine ih.andThen ?_ ?_
    · intro span inner hinner
      exact ⟨[⟨.mark .rightParen, 1⟩], inner, .parens hinner⟩
    · intro span inner middle _ hinner _
      refine (single_predicts _ middle).andGive ?_
      rintro more ⟨⟩ ⟨closing, rfl⟩
      exact .parens hinner
  case noOperand =>
    intro tokens hsign hwhole hdecimal hpi hparens
    refine Predicts.expected .expression ?_ ?_
    · exact ⟨[⟨.keyword .piWord, 1⟩], .pi, .pi⟩
    · intro others hothers
      unfold view
      rw [operand]
      · rfl
      all_goals
        intros
        obtain ⟨more, hmore⟩ := cons_of_head?_eq hothers ‹_›
      · exact hsign _ _ hmore
      · exact hwhole _ _ _ hmore
      · exact hdecimal _ _ _ hmore
      · exact hpi _ _ hmore
      · exact hparens _ _ hmore
  case climbs =>
    intro least tokens ihleft ihwhole
    rw [view_climb]
    refine ihleft.andThen ?_ ?_
    · intro span left hleft
      exact ⟨[], left, by simpa using .of_operand hleft least⟩
    · intro span left rest _ hleft hread
      obtain ⟨found, rfl, rfl⟩ := exists_of_view hread
      exact ihwhole found span (.of_operand hleft least _)
  case atEnd =>
    intro least left front hgrips
    exact extend_predicts_of_operatorAhead hgrips.1 nofun
  case noOperator =>
    intro least left first after hnone front hgrips
    refine extend_predicts_of_operatorAhead hgrips.1 ?_
    rintro lexed ⟨⟩ operator hoperator
    exact absurd (hnone.symm.trans hoperator) nofun
  case looser =>
    intro least left first after operator hoperator hlooser front hgrips
    refine extend_predicts_of_operatorAhead hgrips.1 ?_
    rintro lexed ⟨⟩ other hother
    obtain rfl := Option.some.inj (hoperator.symm.trans hother)
    exact hlooser
  case operator =>
    intro least left first after operator hoperator hlooser ihright ihwhole front hgrips
    have hleast : least ≤ operator.precedence := Nat.not_lt.mp hlooser
    obtain ⟨token, line⟩ := first
    refine Predicts.behind ((view (climb (operator.precedence + 1))).andThen fun right =>
        view (extend least (.binary operator left right))) ?_ ?_
    · refine ihright.andThen ?_ ?_
      · intro back right hback
        have hleft := hgrips.2 ⟨token, line⟩ rfl operator hoperator hleast
        have hwhole := (IsLayer.binary line hoperator hleft hback).mono hleast
        exact ⟨[], .binary operator left right, by simpa using hwhole⟩
      · intro back right rest _ hback hread
        have hnext := hgrips.binary hoperator hleast hback hread
        obtain ⟨found, rfl, rfl⟩ := exists_of_view hread
        simpa using ihwhole found (front ++ ⟨token, line⟩ :: back) hnext
    · intro others _
      exact extend_cons left line others hoperator hleast

/-! ### What is taken of an angle -/

theorem OperatorAhead.mono {most least : Nat → Prop} {tokens : List Lexed}
    (hahead : OperatorAhead least tokens) (hmono : ∀ operator : Operator,
      least operator.precedence → most operator.precedence) : OperatorAhead most tokens :=
  fun lexed hlexed operator hoperator => hmono operator (hahead lexed hlexed operator hoperator)

theorem operatorAhead_cons {allowed : Nat → Prop} {token : Token} {operator : Operator} {line : Nat}
    {rest : List Lexed} (hoperator : Operator.ofToken? token = some operator)
    (hallowed : allowed operator.precedence) : OperatorAhead allowed (⟨token, line⟩ :: rest) := by
  rintro lexed ⟨⟩ other hother
  obtain rfl := Option.some.inj (hoperator.symm.trans hother)
  exact hallowed

/-- Whatever follows the operand, it is taken off the front. -/
def TakesOperand (span : List Lexed) (value : Expression) : Prop :=
  ∀ rest, view operand (span ++ rest) = .ok (value, rest)

/-- Climbing takes `value` off the front as the left operand of what follows, unless an operator of
more than `strength` follows. -/
def ClimbsTo (strength : Nat) (span : List Lexed) (value : Expression) : Prop :=
  ∀ least rest, least ≤ strength → OperatorAhead (· ≤ strength) rest →
    view (climb least) (span ++ rest) = view (extend least value) rest

theorem TakesOperand.climbsTo {span : List Lexed} {value : Expression}
    (h : TakesOperand span value) (strength : Nat) : ClimbsTo strength span value := by
  intro least rest _ _
  rw [view_climb, Reader.andThen_of_ok (h rest)]

theorem ClimbsTo.mono {most least : Nat} {span : List Lexed} {value : Expression}
    (h : ClimbsTo most span value) (hle : least ≤ most) : ClimbsTo least span value := by
  intro lower rest hlower hrest
  apply h lower rest (Nat.le_trans hlower hle)
  exact hrest.mono fun _ hstrength => Nat.le_trans hstrength hle

theorem ClimbsTo.takes {strength : Nat} {span rest : List Lexed} {value : Expression}
    (h : ClimbsTo strength span value) (hrest : OperatorAhead (· < strength) rest) :
    view (climb strength) (span ++ rest) = .ok (value, rest) := by
  rw [h strength rest (Nat.le_refl _) (hrest.mono fun _ => Nat.le_of_lt)]
  exact extend_of_operatorAhead value hrest

/-- An operator leaves its right operand what binds tighter than itself, and goes on as the left
operand of what binds no tighter. -/
theorem ClimbsTo.binary {front back : List Lexed} {left right : Expression} {token : Token}
    {operator : Operator} (line : Nat) (hoperator : Operator.ofToken? token = some operator)
    (hleft : ClimbsTo operator.precedence front left)
    (hright : ClimbsTo (operator.precedence + 1) back right) :
    ClimbsTo operator.precedence (front ++ ⟨token, line⟩ :: back)
      (.binary operator left right) := by
  intro least rest hleast hrest
  have hback : view (climb (operator.precedence + 1)) (back ++ rest) = .ok (right, rest) :=
    hright.takes (hrest.mono fun _ => Nat.lt_succ_of_le)
  calc view (climb least) ((front ++ ⟨token, line⟩ :: back) ++ rest)
      = view (climb least) (front ++ ⟨token, line⟩ :: (back ++ rest)) := by simp
    _ = view (extend least left) (⟨token, line⟩ :: (back ++ rest)) :=
        hleft least _ hleast (operatorAhead_cons hoperator (Nat.le_refl _))
    _ = view (extend least (.binary operator left right)) rest := by
        rw [extend_cons left line _ hoperator hleast]
        exact Reader.andThen_of_ok hback

theorem TakesOperand.negate {span : List Lexed} {inner : Expression} (line : Nat)
    (h : TakesOperand span inner) :
    TakesOperand (⟨.mark .minus, line⟩ :: span) (.negate inner) := by
  intro rest
  rw [List.cons_append, operand_minus]
  exact Reader.andThen_of_ok (h rest)

theorem ClimbsTo.parens {strength : Nat} {span : List Lexed} {inner : Expression}
    (opening closing : Nat) (h : ClimbsTo strength span inner) :
    TakesOperand (⟨.mark .leftParen, opening⟩ :: (span ++ [⟨.mark .rightParen, closing⟩]))
      inner := by
  intro rest
  have hclosing : OperatorAhead (· < 0) (⟨.mark .rightParen, closing⟩ :: rest) := by
    rintro lexed ⟨⟩ operator ⟨⟩
  have hinner := (h.mono (Nat.zero_le _)).takes hclosing
  rw [List.cons_append, List.append_assoc, operand_leftParen]
  exact (Reader.andThen_of_ok hinner).trans (Reader.andThen_of_ok (single_cons _ _ rest))

/-- By induction on the derivations of all three layers. -/
theorem IsAngle.climbsTo {span : List Lexed} {value : Expression} (h : IsAngle span value) :
    ClimbsTo 1 span value := by
  refine @IsAngle.rec (fun span value _ => TakesOperand span value)
    (fun span value _ => ClimbsTo 2 span value) (fun span value _ => ClimbsTo 1 span value)
    ?negate ?whole ?decimal ?pi ?parens ?operand ?termSign ?term ?angleSign span value h
  case negate =>
    intro line span inner _ hinner
    exact hinner.negate line
  case whole =>
    intro line value
    exact operand_whole line value
  case decimal =>
    intro line value
    exact operand_decimal line value
  case pi =>
    intro line
    exact operand_pi line
  case parens =>
    intro opening closing span inner _ hinner
    exact hinner.parens opening closing
  case operand =>
    intro span value _ hoperand
    exact hoperand.climbsTo 2
  case termSign =>
    intro front left token operator line back right _ hsign _ hleft hright
    obtain ⟨hoperator, hstrength⟩ := hsign.ofToken?
    rw [← hstrength] at hleft ⊢
    exact hleft.binary line hoperator (hright.climbsTo _)
  case term =>
    intro span value _ hterm
    exact hterm.mono (by decide)
  case angleSign =>
    intro front left token operator line back right _ hsign _ hleft hright
    obtain ⟨hoperator, hstrength⟩ := hsign.ofToken?
    rw [← hstrength] at hleft ⊢
    exact hleft.binary line hoperator (by rwa [hstrength])

/-- The token at the front, if there is one, is none of the four signs. -/
def NoSignAhead (tokens : List Lexed) : Prop :=
  ∀ lexed ∈ tokens.head?,
    lexed.token ∉ [.mark .plus, .mark .minus, .mark .star, .mark .slash]

theorem Operator.ofToken?_eq_none_iff {token : Token} :
    ofToken? token = none ↔ token ∉ [.mark .plus, .mark .minus, .mark .star, .mark .slash] := by
  unfold ofToken?
  split <;> simp_all

theorem noSignAhead_iff {tokens : List Lexed} :
    NoSignAhead tokens ↔ OperatorAhead (· < 0) tokens := by
  simp only [NoSignAhead, OperatorAhead, Nat.not_lt_zero, ← Operator.ofToken?_eq_none_iff,
    Option.eq_none_iff_forall_ne_some]

theorem angle_predicts (tokens : List Lexed) : Predicts (view angle) IsAngle tokens :=
  expression_predicts.2.1 0 tokens

theorem IsAngle.angle_append {span rest : List Lexed} {value : Expression} (h : IsAngle span value)
    (hrest : NoSignAhead rest) : view angle (span ++ rest) = .ok (value, rest) := by
  exact (h.climbsTo.mono (Nat.zero_le 1)).takes (noSignAhead_iff.mp hrest)

/-- No angle begins with a closing parenthesis. -/
theorem IsAngle.startsOff {span rest : List Lexed} {value : Expression} (h : IsAngle span value)
    (hrest : NoSignAhead rest) : StartsOff .rightParen (span ++ rest) := by
  by_contra hstarts
  obtain ⟨line, after, hsplit⟩ := exists_of_not_startsOff hstarts
  have hread : view (climb 0) (span ++ rest) = .ok (value, rest) := h.angle_append hrest
  rw [hsplit, view_climb, Reader.andThen_of_error (operand_rightParen line after)] at hread
  nomatch hread

/-- An angle is read exactly where the grammar has one that no sign follows. -/
theorem angle_eq_ok_iff {tokens rest : List Lexed} {value : Expression} :
    view angle tokens = .ok (value, rest) ↔
      ∃ span, tokens = span ++ rest ∧ IsAngle span value ∧ NoSignAhead rest := by
  constructor
  · intro hread
    obtain ⟨span, hspan, hangle, -⟩ := (angle_predicts tokens).taken hread
    exact ⟨span, hspan, hangle, noSignAhead_iff.mpr (climb_stops hread)⟩
  · rintro ⟨span, rfl, hangle, hrest⟩
    exact hangle.angle_append hrest

/-! ### Angles in full parentheses -/

/-- The sign of an operator. -/
def Operator.sign : Operator → Mark
  | .add => .plus
  | .subtract => .minus
  | .multiply => .star
  | .divide => .slash

/-- An angle with parentheses around everything that has parts. -/
def Expression.parenthesised : Expression → List Token
  | .number value => [.decimal value]
  | .pi => [.keyword .piWord]
  | .negate inner =>
    .mark .leftParen :: .mark .minus :: (inner.parenthesised ++ [.mark .rightParen])
  | .binary operator left right =>
    .mark .leftParen :: (left.parenthesised ++ .mark operator.sign ::
      (right.parenthesised ++ [.mark .rightParen]))

theorem IsAngle.binary {front back : List Lexed} {left right : Expression} (line : Nat)
    (operator : Operator) (hleft : IsOperand front left) (hright : IsOperand back right) :
    IsAngle (front ++ ⟨.mark operator.sign, line⟩ :: back) (.binary operator left right) := by
  cases operator with
  | add => exact .sign (.term (.operand hleft)) .plus (.operand hright)
  | subtract => exact .sign (.term (.operand hleft)) .minus (.operand hright)
  | multiply => exact .term (.sign (.operand hleft) .times hright)
  | divide => exact .term (.sign (.operand hleft) .over hright)

theorem IsOperand.of_parenthesised {value : Expression} {tokens : List Lexed}
    (htokens : tokens.map Lexed.token = value.parenthesised) : IsOperand tokens value := by
  induction value generalizing tokens with
  | number value =>
      obtain ⟨⟨token, line⟩, rfl, rfl⟩ := List.map_eq_singleton_iff.mp htokens
      exact .decimal
  | pi =>
      obtain ⟨⟨token, line⟩, rfl, rfl⟩ := List.map_eq_singleton_iff.mp htokens
      exact .pi
  | negate inner ih =>
      obtain ⟨⟨_, opening⟩, _, rfl, rfl, hbehind⟩ := List.map_eq_cons_iff.mp htokens
      obtain ⟨⟨_, line⟩, _, rfl, rfl, hinside⟩ := List.map_eq_cons_iff.mp hbehind
      obtain ⟨span, _, rfl, hspan, hlast⟩ := List.map_eq_append_iff.mp hinside
      obtain ⟨⟨_, closing⟩, rfl, rfl⟩ := List.map_eq_singleton_iff.mp hlast
      exact IsOperand.parens (.term (.operand (.negate (ih hspan))))
  | binary operator left right ihleft ihright =>
      obtain ⟨⟨_, opening⟩, _, rfl, rfl, hbehind⟩ := List.map_eq_cons_iff.mp htokens
      obtain ⟨front, _, rfl, hfront, hinside⟩ := List.map_eq_append_iff.mp hbehind
      obtain ⟨⟨_, line⟩, _, rfl, rfl, hsecond⟩ := List.map_eq_cons_iff.mp hinside
      obtain ⟨back, _, rfl, hback, hlast⟩ := List.map_eq_append_iff.mp hsecond
      obtain ⟨⟨_, closing⟩, rfl, rfl⟩ := List.map_eq_singleton_iff.mp hlast
      have hwhole := IsAngle.binary line operator (ihleft hfront) (ihright hback)
      simpa using IsOperand.parens hwhole

/-- Climbing by binding strength reads the layered grammar, and an angle that is written with all
its parentheses reads back as it is. -/
theorem angle_reads_layers :
    (∀ tokens value rest, view angle tokens = .ok (value, rest) ↔
      ∃ span, tokens = span ++ rest ∧ IsAngle span value ∧ NoSignAhead rest) ∧
    ∀ (value : Expression) (tokens : List Lexed),
      tokens.map Lexed.token = value.parenthesised → view angle tokens = .ok (value, []) := by
  constructor
  · intro tokens value rest
    exact angle_eq_ok_iff
  · intro value tokens htokens
    have hoperand := IsOperand.of_parenthesised htokens
    exact angle_eq_ok_iff.mpr ⟨tokens, by simp, .term (.operand hoperand), nofun⟩

/-- A sign in front of a quotient, on three lines. -/
theorem angle_reads_layers_quotient :
    let tokens : List Lexed :=
      [⟨.mark .leftParen, 1⟩, ⟨.mark .minus, 1⟩, ⟨.mark .leftParen, 1⟩, ⟨.keyword .piWord, 2⟩,
        ⟨.mark .slash, 2⟩, ⟨.decimal 4, 3⟩, ⟨.mark .rightParen, 3⟩, ⟨.mark .rightParen, 3⟩]
    let value : Expression := .negate (.binary .divide .pi (.number 4))
    tokens.map Lexed.token = value.parenthesised ∧ view angle tokens = .ok (value, []) :=
  ⟨rfl, angle_reads_layers.2 _ _ rfl⟩

end GateBench.Syntax
