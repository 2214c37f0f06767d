import Mathlib.Logic.Relation
import Mathlib.Order.WellFounded

/-!
Runs of systems whose sides move in any order.  A step is any move of any side, so what is said of
every run is said of every order of moves.  A run may only stop where no move is left.
-/

namespace GateBench

/-- What holds at first, and what every move keeps, holds after any list of moves of which those
that cannot be made are left out. -/
theorem invariant_of_moves {σ μ : Type} {step : σ → μ → Option σ} (invariant : σ → Prop)
    (hstep : ∀ {state next : σ} {move : μ}, invariant state → step state move = some next →
      invariant next)
    {state : σ} (hstate : invariant state) (moves : List μ) :
    invariant (moves.foldl (fun state move => (step state move).getD state) state) := by
  induction moves generalizing state with
  | nil => exact hstate
  | cons move others ih =>
      have hnext : invariant ((step state move).getD state) := by
        cases hmove : step state move with
        | none => exact hstate
        | some next => exact hstep hstate hmove
      exact ih hnext

variable {σ α β : Type} {step : σ → σ → Prop}

/-- The states from which every run comes to a state of a kind: it is there already, or some move
can be made and every move leads to such a state again. -/
inductive Inevitable (step : σ → σ → Prop) (kind : σ → Prop) : σ → Prop where
  | now {state : σ} (hnow : kind state) : Inevitable step kind state
  | later {state : σ} (hmove : ∃ next, step state next)
      (hnext : ∀ next, step state next → Inevitable step kind next) :
      Inevitable step kind state

namespace Inevitable

variable {kind : σ → Prop}

/-- What every run comes to, some run comes to. -/
theorem exists_run {state : σ} (hinevitable : Inevitable step kind state) :
    ∃ last, Relation.ReflTransGen step state last ∧ kind last := by
  induction hinevitable with
  | now hnow => exact ⟨_, .refl, hnow⟩
  | later hmove _ ih =>
      obtain ⟨next, hnext⟩ := hmove
      obtain ⟨last, hrun, hlast⟩ := ih next hnext
      exact ⟨last, .head hnext hrun, hlast⟩

/-- An invariant under which no run stops early and every move makes the state lighter. -/
theorem of_weight {rank : β → β → Prop} (hrank : WellFounded rank) (weight : σ → β)
    {invariant : σ → Prop}
    (hstep : ∀ state next, invariant state → step state next →
      invariant next ∧ rank (weight next) (weight state))
    (hstuck : ∀ state, invariant state → kind state ∨ ∃ next, step state next)
    {state : σ} (hstate : invariant state) : Inevitable step kind state := by
  induction hweight : weight state using hrank.induction generalizing state with
  | h heaviness ih =>
      subst hweight
      rcases hstuck state hstate with hkind | hmove
      · exact .now hkind
      · refine .later hmove fun next hnext => ?_
        obtain ⟨hkept, hlighter⟩ := hstep state next hstate hnext
        exact ih _ hlighter hkept rfl

end Inevitable

/-- In whatever order the moves are made, the system comes to have the result, and it never has
another one. -/
structure Returns (step : σ → σ → Prop) (result? : σ → Option α) (start : σ) (result : α) :
    Prop where
  only : ∀ state, Relation.ReflTransGen step start state → ∀ other, result? state = some other →
    other = result
  always : Inevitable step (fun state => result? state = some result) start

namespace Returns

variable {result? : σ → Option α} {start : σ}

theorem unique {first second : α} (hfirst : Returns step result? start first)
    (hsecond : Returns step result? start second) : first = second := by
  obtain ⟨state, hrun, hresult⟩ := hfirst.always.exists_run
  exact hsecond.only state hrun first hresult

/-- An invariant that holds along every run. -/
theorem invariant_of_run {invariant : σ → Prop}
    (hstep : ∀ state next, invariant state → step state next → invariant next)
    (hstart : invariant start) {state : σ} (hrun : Relation.ReflTransGen step start state) :
    invariant state := by
  induction hrun with
  | refl => exact hstart
  | tail _ hlast ih => exact hstep _ _ ih hlast

/-- A system returns when an invariant fixes the result, every move makes the state lighter, and
without a result there is a move. -/
theorem of_weight {rank : β → β → Prop} (hrank : WellFounded rank) (weight : σ → β)
    {invariant : σ → Prop} {result : α}
    (hstep : ∀ state next, invariant state → step state next →
      invariant next ∧ rank (weight next) (weight state))
    (hresult : ∀ state, invariant state →
      result? state = some result ∨ result? state = none ∧ ∃ next, step state next)
    (hstart : invariant start) : Returns step result? start result := by
  refine ⟨fun state hrun other hother => ?_, .of_weight hrank weight hstep (fun state hstate => ?_)
    hstart⟩
  · have hstate := invariant_of_run
      (fun state next hstate hnext => (hstep state next hstate hnext).1)
      hstart hrun
    rcases hresult state hstate with hsome | ⟨hnone, _⟩
    · exact Option.some.inj (hother.symm.trans hsome)
    · rw [hnone] at hother
      nomatch hother
  · exact (hresult state hstate).imp_right And.right

end Returns

end GateBench
