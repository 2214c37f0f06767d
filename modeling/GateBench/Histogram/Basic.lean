/-!
Histograms: how often every label was counted.  Labels stand in ascending order, each once.
-/

namespace GateBench

/-- Counts by label. -/
structure Histogram where
  buckets : List (String × Nat)
deriving DecidableEq, Repr

namespace Histogram

/-- The histogram without labels. -/
def empty : Histogram :=
  ⟨[]⟩

/-- Add to the count of a label, in buckets that stand in ascending order. -/
def addToBuckets (label : String) (count : Nat) :
    List (String × Nat) → List (String × Nat)
  | [] => [(label, count)]
  | (first, counted) :: others =>
    if label < first then (label, count) :: (first, counted) :: others
    else if label = first then (first, counted + count) :: others
    else (first, counted) :: addToBuckets label count others

/-- Add to the count of a label. -/
def add (histogram : Histogram) (label : String) (count : Nat) : Histogram :=
  ⟨addToBuckets label count histogram.buckets⟩

/-- The histogram of pairs; the counts of equal labels add up. -/
def ofPairs (pairs : List (String × Nat)) : Histogram :=
  pairs.foldl (fun histogram (label, count) => histogram.add label count) empty

/-- The count of a label, zero without a bucket. -/
def count (histogram : Histogram) (label : String) : Nat :=
  (histogram.buckets.lookup label).getD 0

/-- The sum of all counts. -/
def total (histogram : Histogram) : Nat :=
  histogram.buckets.foldr (fun bucket sum => bucket.2 + sum) 0

/-- The first of the buckets with the highest count. -/
def mostFrequent? (histogram : Histogram) : Option (String × Nat) :=
  histogram.buckets.foldl (fun best bucket =>
      match best with
      | some leader => if bucket.2 ≤ leader.2 then some leader else some bucket
      | none => some bucket)
    none

end Histogram

end GateBench
