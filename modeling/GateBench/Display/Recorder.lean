import GateBench.Display.Panel

/-!
Surfaces that record what is posted to them.  All surfaces of a panel share one log.
-/

namespace GateBench.Display

/-- A log of notices, latest first.  The openings listed in `failing` fail, counted from one; once
`room` notices are recorded, every post fails. -/
structure Recorder where
  failing : List Nat := []
  room : Option Nat := none
  attempts : Nat := 0
  log : List Notice := []
  closed : Nat := 0
deriving Repr

/-- Recording surfaces. -/
def recording : SurfaceKind Recorder where
  create recorder :=
    let attempts := recorder.attempts + 1
    let result := if attempts ∈ recorder.failing then .error ⟨"no surface"⟩ else .ok ()
    (result, { recorder with attempts })
  post notice recorder :=
    if recorder.room.any (· ≤ recorder.log.length) then (.error ⟨"surface is full"⟩, recorder)
    else (.ok (), { recorder with log := notice :: recorder.log })
  close recorder := { recorder with closed := recorder.closed + 1 }

end GateBench.Display
