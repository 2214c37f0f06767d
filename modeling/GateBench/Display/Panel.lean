import GateBench.Display.Notice

/-!
Panels.  A panel holds at most one surface at a time: the first notice opens it, later ones reuse
it, and disposing of the panel closes it, so that the next notice opens a new one.
-/

namespace GateBench.Display

/-- Why a notice could not be shown. -/
structure DisplayError where
  reason : String
deriving DecidableEq, Repr

/-- A display error in words. -/
def DisplayError.message (error : DisplayError) : String :=
  "Display error: " ++ error.reason

/-- A kind of surface: how surfaces are opened, posted to and closed, acting on a state `σ` that all
of them share.  Opening and posting can fail. -/
structure SurfaceKind (σ : Type) where
  create : σ → Except DisplayError Unit × σ
  post : Notice → σ → Except DisplayError Unit × σ
  close : σ → σ

/-- A panel over surfaces of a kind.  `opened` counts how often it set out to open one. -/
structure Panel (σ : Type) where
  surfaces : σ
  isOpen : Bool
  opened : Nat
deriving Repr

namespace Panel

variable {σ : Type}

/-- A panel that has not been used. -/
def new (surfaces : σ) : Panel σ :=
  ⟨surfaces, false, 0⟩

/-- Open a surface unless one is open. -/
def ensureOpen (kind : SurfaceKind σ) (panel : Panel σ) : Except DisplayError Unit × Panel σ :=
  if panel.isOpen then (.ok (), panel)
  else
    match kind.create panel.surfaces with
    | (.error error, surfaces) => (.error error, ⟨surfaces, false, panel.opened + 1⟩)
    | (.ok (), surfaces) => (.ok (), ⟨surfaces, true, panel.opened + 1⟩)

/-- Post a notice to the surface of a panel.  A failing post leaves the surface open. -/
def post (kind : SurfaceKind σ) (notice : Notice) (panel : Panel σ) :
    Except DisplayError Unit × Panel σ :=
  match panel.ensureOpen kind with
  | (.error error, panel) => (.error error, panel)
  | (.ok (), panel) =>
    let (result, surfaces) := kind.post notice panel.surfaces
    (result, { panel with surfaces })

/-- Close the surface of a panel, if it has one. -/
def dispose (kind : SurfaceKind σ) (panel : Panel σ) : Panel σ :=
  if panel.isOpen then { panel with surfaces := kind.close panel.surfaces, isOpen := false }
  else panel

end Panel

end GateBench.Display
