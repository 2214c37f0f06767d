import GateBench.Display.Panel

/-!
A line that tells how far a run has come.
-/

namespace GateBench.Display

/-- The line shown, whether it is finished, and the shots of the run. -/
structure Progress where
  shots : Nat
  line : String := "Waiting for worker..."
  finished : Bool := false
deriving DecidableEq, Repr

/-- The line after a notice: how many shots have come in with how many outcomes, or what failed. -/
def Progress.show (progress : Progress) : Notice → Progress
  | .update buckets =>
    let total := Histogram.total ⟨buckets⟩
    { progress with
      line := toString total ++ "/" ++ toString progress.shots ++ " shots, " ++
        toString buckets.length ++ " outcomes" }
  | .error title _ => { progress with line := title ++ " failed" }
  | .circuit _ => progress

/-- Surfaces that show progress; closing one finishes the line. -/
def progressLine : SurfaceKind Progress where
  create progress := (.ok (), progress)
  post notice progress := (.ok (), progress.show notice)
  close progress := { progress with finished := true }

end GateBench.Display
