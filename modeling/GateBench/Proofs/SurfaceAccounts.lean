import GateBench.Display.Recorder

/-!
What a panel accounts for.  Of the surfaces that were created for it all are closed again but the
one that is open now, whichever calls fail.  It counts every time that it set out to open one,
though, so its count is that of the surfaces created as long as no attempt failed.
-/

namespace GateBench.Display

variable {σ : Type}

/-- How many surfaces were created, failed to be created, and were closed. -/
structure SurfaceTally where
  created : Nat := 0
  failed : Nat := 0
  closed : Nat := 0
deriving DecidableEq, Repr

/-- A tally after an attempt to create a surface. -/
def SurfaceTally.attempt (tally : SurfaceTally) : Except DisplayError Unit → SurfaceTally
  | .ok () => { tally with created := tally.created + 1 }
  | .error _ => { tally with failed := tally.failed + 1 }

/-- Surfaces of a kind with a tally of them. -/
def SurfaceKind.tallied (kind : SurfaceKind σ) : SurfaceKind (σ × SurfaceTally) where
  create state :=
    let (result, surfaces) := kind.create state.1
    (result, surfaces, state.2.attempt result)
  post notice state :=
    let (result, surfaces) := kind.post notice state.1
    (result, surfaces, state.2)
  close state := (kind.close state.1, { state.2 with closed := state.2.closed + 1 })

/-- A call on a panel. -/
inductive PanelCall where
  | post (notice : Notice)
  | dispose

/-- A tally notes whether a surface could be created. -/
theorem SurfaceKind.tallied_create {kind : SurfaceKind σ} {surfaces later : σ}
    {result : Except DisplayError Unit} (hcreate : kind.create surfaces = (result, later))
    (tally : SurfaceTally) :
    kind.tallied.create (surfaces, tally) = (result, later, tally.attempt result) := by
  simp only [tallied, hcreate]

namespace Panel

/-! ### What the calls do -/

section Calls

variable {kind : SurfaceKind σ} {surfaces later : σ}

theorem post_of_open (kind : SurfaceKind σ) (surfaces : σ) (opened : Nat) (notice : Notice) :
    post kind notice ⟨surfaces, true, opened⟩ =
      ((kind.post notice surfaces).1, ⟨(kind.post notice surfaces).2, true, opened⟩) :=
  rfl

theorem post_of_failure {error : DisplayError}
    (hcreate : kind.create surfaces = (.error error, later)) (opened : Nat) (notice : Notice) :
    post kind notice ⟨surfaces, false, opened⟩ = (.error error, ⟨later, false, opened + 1⟩) := by
  simp only [post, ensureOpen, hcreate, Bool.false_eq_true, if_false]

theorem post_of_created (hcreate : kind.create surfaces = (.ok (), later)) (opened : Nat)
    (notice : Notice) :
    post kind notice ⟨surfaces, false, opened⟩ =
      ((kind.post notice later).1, ⟨(kind.post notice later).2, true, opened + 1⟩) := by
  simp only [post, ensureOpen, hcreate, Bool.false_eq_true, if_false]

end Calls

/-- A panel after a call, whether it succeeds or not. -/
def obey (kind : SurfaceKind σ) (panel : Panel σ) : PanelCall → Panel σ
  | .post notice => (panel.post kind notice).2
  | .dispose => panel.dispose kind

/-- A panel after calls. -/
def obeyAll (kind : SurfaceKind σ) (panel : Panel σ) (calls : List PanelCall) : Panel σ :=
  calls.foldl (obey kind) panel

/-- A panel without the tally of its surfaces. -/
def untallied (panel : Panel (σ × SurfaceTally)) : Panel σ :=
  ⟨panel.surfaces.1, panel.isOpen, panel.opened⟩

/-- A panel has closed all surfaces that were created for it but the one that is open, and counts
those that were created together with those that failed to be. -/
structure AccountsFor (panel : Panel (σ × SurfaceTally)) : Prop where
  created_eq : panel.surfaces.2.created =
    panel.surfaces.2.closed + if panel.isOpen = true then 1 else 0
  opened_eq : panel.opened = panel.surfaces.2.created + panel.surfaces.2.failed

theorem accountsFor_new (surfaces : σ) : AccountsFor (new (surfaces, {})) :=
  ⟨rfl, rfl⟩

/-- A call keeps the accounts, and the tally makes no difference to what it does. -/
theorem AccountsFor.obey {panel : Panel (σ × SurfaceTally)} (haccounts : panel.AccountsFor)
    (kind : SurfaceKind σ) (call : PanelCall) :
    (panel.obey kind.tallied call).AccountsFor ∧
      (panel.obey kind.tallied call).untallied = panel.untallied.obey kind call := by
  obtain ⟨⟨surfaces, tally⟩, isOpen, opened⟩ := panel
  obtain ⟨hcreated, hopened⟩ := haccounts
  cases call with
  | post notice =>
      change AccountsFor (post kind.tallied notice _).2 ∧ untallied (post kind.tallied notice _).2 =
        (post kind notice ⟨surfaces, isOpen, opened⟩).2
      cases isOpen with
      | true =>
          rw [post_of_open, post_of_open]
          exact ⟨⟨hcreated, hopened⟩, rfl⟩
      | false =>
          change tally.created = tally.closed at hcreated
          change opened = tally.created + tally.failed at hopened
          rcases hcreate : kind.create surfaces with ⟨error | _, later⟩
          · have htallied := SurfaceKind.tallied_create hcreate tally
            rw [post_of_failure hcreate, post_of_failure htallied]
            exact ⟨⟨hcreated, congrArg (· + 1) hopened⟩, rfl⟩
          · have htallied := SurfaceKind.tallied_create hcreate tally
            rw [post_of_created hcreate, post_of_created htallied]
            refine ⟨⟨congrArg (· + 1) hcreated, ?_⟩, rfl⟩
            change opened + 1 = tally.created + 1 + tally.failed
            omega
  | dispose =>
      cases isOpen with
      | true => exact ⟨⟨hcreated, hopened⟩, rfl⟩
      | false => exact ⟨⟨hcreated, hopened⟩, rfl⟩

theorem AccountsFor.obeyAll {panel : Panel (σ × SurfaceTally)} (haccounts : panel.AccountsFor)
    (kind : SurfaceKind σ) (calls : List PanelCall) :
    (panel.obeyAll kind.tallied calls).AccountsFor ∧
      (panel.obeyAll kind.tallied calls).untallied = panel.untallied.obeyAll kind calls := by
  induction calls generalizing panel with
  | nil => exact ⟨haccounts, rfl⟩
  | cons call others ih =>
      obtain ⟨hnext, hsame⟩ := haccounts.obey kind call
      obtain ⟨hall, hothers⟩ := ih hnext
      rw [hsame] at hothers
      exact ⟨hall, hothers⟩

/-- After any calls on a panel, whatever becomes of them, the surfaces that were created for it are
those that were closed and the one that is open, if one is.  The panel counts the attempts to create
one, so its count is that of the surfaces exactly if no attempt has failed. -/
theorem opened_counts_attempts (kind : SurfaceKind σ) (surfaces : σ) (calls : List PanelCall) :
    let watched := (new (surfaces, {})).obeyAll kind.tallied calls
    let tally := watched.surfaces.2
    watched.untallied = (new surfaces).obeyAll kind calls ∧
      tally.created = tally.closed + (if watched.isOpen = true then 1 else 0) ∧
      watched.opened = tally.created + tally.failed ∧
      (watched.opened = tally.created ↔ tally.failed = 0) := by
  intro watched tally
  obtain ⟨⟨hcreated, hopened⟩, hsame⟩ := (accountsFor_new surfaces).obeyAll kind calls
  refine ⟨hsame, hcreated, hopened, ?_⟩
  change watched.opened = tally.created + tally.failed at hopened
  omega

/-- Calls on a panel whose first surface cannot be created: the second notice opens one. -/
def brokenOnce : Panel (Recorder × SurfaceTally) :=
  (new ({ failing := [1] }, {})).obeyAll recording.tallied
    [.post (.error "Run" "late"), .post (.error "Run" "late"), .dispose]

theorem opened_counts_attempts_brokenOnce :
    brokenOnce.surfaces.2 = ⟨1, 1, 1⟩ ∧ brokenOnce.isOpen = false ∧ brokenOnce.opened = 2 ∧
      brokenOnce.opened ≠ brokenOnce.surfaces.2.created := by
  obtain ⟨-, -, hopened, hiff⟩ := opened_counts_attempts recording { failing := [1] }
    [.post (.error "Run" "late"), .post (.error "Run" "late"), .dispose]
  have htally : brokenOnce.surfaces.2 = ⟨1, 1, 1⟩ := rfl
  exact ⟨htally, rfl, hopened, fun heq => absurd (hiff.mp heq) (by decide)⟩

end Panel

end GateBench.Display
