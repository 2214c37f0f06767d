import GateBench.Message.Response

/-!
Computations that talk while they work.  Before each piece of work a computation asks whether to go
on, and it tells what it has found as events, hearing back whether anyone still listens.  What it
does next is a function of these answers and of nothing else.
-/

namespace GateBench

/-- A computation with a result of type `ρ`: it is done, or it asks, or it tells an event. -/
inductive Dialogue (ρ : Type) where
  | done (result : ρ)
  | ask (next : Bool → Dialogue ρ)
  | tell (event : Message.RunEvent) (next : Bool → Dialogue ρ)

namespace Dialogue

variable {ρ τ ω : Type}

/-- The same dialogue with another result. -/
def map (f : ρ → τ) : Dialogue ρ → Dialogue τ
  | done result => done (f result)
  | ask next => ask fun answer => (next answer).map f
  | tell event next => tell event fun answer => (next answer).map f

/-- The same dialogue as far as it tells at most `room` events; it breaks off instead of telling one
more. -/
def within : (room : Nat) → Dialogue ρ → Dialogue (Option ρ)
  | _, done result => done (some result)
  | room, ask next => ask fun answer => (next answer).within room
  | 0, tell _ _ => done none
  | room + 1, tell event next => tell event fun answer => (next answer).within room

/-- The same dialogue up to its first piece of work, at which it breaks down for a reason. -/
def failing (reason : String) : Dialogue ρ → Dialogue (Except String ρ)
  | done result => done (.ok result)
  | ask next =>
    ask fun wanted => if wanted then done (.error reason) else (next false).failing reason
  | tell event next => tell event fun answer => (next answer).failing reason

end Dialogue

/-- The other side of a dialogue, with a state: asked whether to go on, and told events, after which
it says whether it still listens. -/
structure Audience (ω : Type) where
  goesOn : ω → Bool × ω
  hears : ω → Message.RunEvent → Bool × ω

/-- An audience that wants all of a dialogue. -/
def Audience.willing : Audience Unit where
  goesOn _ := (true, ())
  hears _ _ := (true, ())

/-- What a dialogue came to: its result, the events that were told, and the audience afterwards. -/
structure Conversation (ρ ω : Type) where
  result : ρ
  events : List Message.RunEvent
  audience : ω

namespace Dialogue

variable {ρ τ ω : Type}

/-- Lead a dialogue to its end; `told` holds the events so far, latest first. -/
def converseFrom (audience : Audience ω) :
    Dialogue ρ → List Message.RunEvent → ω → Conversation ρ ω
  | done result, told, listener => ⟨result, told.reverse, listener⟩
  | ask next, told, listener =>
    let (answer, listener) := audience.goesOn listener
    (next answer).converseFrom audience told listener
  | tell event next, told, listener =>
    let (answer, listener) := audience.hears listener event
    (next answer).converseFrom audience (event :: told) listener

/-- Lead a dialogue to its end. -/
def converse (audience : Audience ω) (dialogue : Dialogue ρ) (listener : ω) :
    Conversation ρ ω :=
  dialogue.converseFrom audience [] listener

end Dialogue

end GateBench
