import GateBench.Display.DiagramText
import GateBench.Histogram.Basic
import GateBench.Number.Shortest

/-!
Histograms as tables: a row for each outcome with its count, its share in percent with two places,
and a bar with a mark for every two percent.
-/

namespace GateBench.Display

/-- How many rows a table has at most. -/
def maxRows : Nat :=
  16

/-- The share of a count in percent. -/
def percent (count total : Nat) : Float :=
  count.toFloat / total.toFloat * 100.0

/-- The row of an outcome. -/
def tableRow (total : Nat) (bucket : String × Nat) : String :=
  let share := percent bucket.2 total
  let bar := "".pushn '█' (share / 2.0).round.toUInt64.toNat
  "  " ++ bucket.1 ++ ": " ++ padLeft 6 (toString bucket.2) ++ " (" ++
    padLeft 5 (Number.fixedPlaces 2 share) ++ "%) " ++ bar

/-- The lines of a table: outcomes with higher counts come first, those with equal counts in the
order of their labels, and behind the last row the number of outcomes left out. -/
def histogramTable (shots : Nat) (histogram : Histogram) : List String :=
  let rows := histogram.buckets.mergeSort fun first second => second.2 ≤ first.2
  let total := max histogram.total 1
  let left := rows.length - maxRows
  ["", "✓ Results (" ++ toString shots ++ " shots):"] ++ (rows.take maxRows).map (tableRow total) ++
    if left = 0 then [] else ["  ... and " ++ toString left ++ " more outcomes"]

end GateBench.Display
