import GateBench.Histogram.Aggregator
import GateBench.Proofs.Buckets

/-!
What an aggregator has counted.  The events that are counted are the first of those whose index is a
shot, as many as there are shots at most; when they arrive makes no difference.
-/

namespace GateBench

open Message

/-! ### Histograms -/

namespace Histogram

/-- The histogram of labels. -/
def ofLabels (labels : List String) : Histogram :=
  ofPairs (labels.map (·, 1))

theorem ofLabels_concat (labels : List String) (label : String) :
    ofLabels (labels ++ [label]) = (ofLabels labels).add label 1 := by
  rw [ofLabels, List.map_append, List.map_singleton]
  exact ofPairs_concat _ (label, 1)

theorem sumOf_ones (label : String) (labels : List String) :
    sumOf label (labels.map (·, 1)) = labels.count label := by
  induction labels with
  | nil => rfl
  | cons first others ih =>
      simp only [List.map_cons, sumOf_cons, List.count_cons, ih, beq_iff_eq, eq_comm (a := label)]
      exact Nat.add_comm _ _

/-- A histogram of labels counts each as often as it is among them. -/
theorem count_ofLabels (labels : List String) (label : String) :
    (ofLabels labels).count label = labels.count label := by
  rw [ofLabels, count_ofPairs, sumOf_ones]

/-- The counts of a histogram of labels add up to their number. -/
theorem total_ofLabels (labels : List String) : (ofLabels labels).total = labels.length := by
  rw [ofLabels, total_ofPairs, List.map_map]
  simp [Function.comp_def]

end Histogram

/-! ### Aggregators -/

/-- The events of a run that are counted: the first of those whose index is a shot, as many as there
are shots at most. -/
def counted (shots : Nat) (events : List RunEvent) : List RunEvent :=
  (events.filter (·.index < shots)).take shots

theorem length_counted (shots : Nat) (events : List RunEvent) :
    (counted shots events).length = min shots (events.countP (·.index < shots)) := by
  rw [counted, List.length_take, List.countP_eq_length_filter]

/-- One more event is counted if its index is a shot and a shot is left. -/
theorem counted_concat (shots : Nat) (events : List RunEvent) (event : RunEvent) :
    counted shots (events ++ [event]) =
      if event.index < shots ∧ (counted shots events).length < shots then
        counted shots events ++ [event]
      else counted shots events := by
  by_cases hindex : event.index < shots
  · have hfilter : (events ++ [event]).filter (·.index < shots) =
        events.filter (·.index < shots) ++ [event] := by
      simp [List.filter_append, hindex]
    by_cases hroom : (events.filter (·.index < shots)).length < shots
    · have hcounted : counted shots events = events.filter (·.index < shots) :=
        List.take_of_length_le hroom.le
      rw [hcounted, if_pos ⟨hindex, hroom⟩, counted, hfilter]
      exact List.take_of_length_le (by simpa using Nat.succ_le_of_lt hroom)
    -- all shots are taken, so the event falls off the end
    · have hfull : ¬(counted shots events).length < shots := by
        rw [counted, List.length_take]
        omega
      rw [if_neg (fun h => hfull h.2), counted, hfilter]
      exact List.take_append_of_le_length (Nat.le_of_not_lt hroom)
  · rw [if_neg (fun h => hindex h.1), counted, List.filter_append]
    simp [hindex, counted]

namespace Aggregator

/-- What an aggregator holds of the events that it has observed in a run of shots. -/
structure Holds (shots : Nat) (events : List RunEvent) (aggregator : Aggregator) : Prop where
  shots_eq : aggregator.shots = shots
  histogram_eq : aggregator.histogram =
    Histogram.ofLabels ((counted shots events).map (·.label))
  total_eq : aggregator.total = (counted shots events).length

theorem holds_start (shots : Nat) (policy : RefreshPolicy) (now : Nat) :
    Holds shots [] (start shots policy now) :=
  ⟨rfl, by simp [counted, start, Histogram.ofLabels, Histogram.ofPairs],
    by simp [counted, start]⟩

/-- Observing an event keeps count of it, whenever it arrives. -/
theorem Holds.observe {shots : Nat} {events : List RunEvent} {aggregator : Aggregator}
    (hholds : aggregator.Holds shots events) (now : Nat) (event : RunEvent) :
    (aggregator.observe now event).2.Holds shots (events ++ [event]) := by
  obtain ⟨hshots, hhistogram, htotal⟩ := hholds
  unfold Aggregator.observe
  by_cases haccepts : aggregator.accepts event = true
  · rw [if_pos haccepts]
    rw [accepts, Bool.and_eq_true, decide_eq_true_eq, decide_eq_true_eq, hshots, htotal]
      at haccepts
    have hcounted : counted shots (events ++ [event]) = counted shots events ++ [event] := by
      rw [counted_concat, if_pos haccepts]
    have hadded : aggregator.histogram.add event.label 1 =
        Histogram.ofLabels ((counted shots (events ++ [event])).map (·.label)) := by
      rw [hcounted, List.map_append, List.map_singleton, Histogram.ofLabels_concat, hhistogram]
    have hgrown : aggregator.total + 1 = (counted shots (events ++ [event])).length := by
      rw [hcounted, List.length_append, List.length_singleton, htotal]
    dsimp only
    split_ifs <;> exact ⟨hshots, hadded, hgrown⟩
  · rw [if_neg haccepts]
    rw [accepts, Bool.and_eq_true, decide_eq_true_eq, decide_eq_true_eq, hshots, htotal]
      at haccepts
    have hcounted : counted shots (events ++ [event]) = counted shots events := by
      rw [counted_concat, if_neg haccepts]
    exact ⟨hshots, hcounted ▸ hhistogram, hcounted ▸ htotal⟩

end Aggregator

end GateBench
