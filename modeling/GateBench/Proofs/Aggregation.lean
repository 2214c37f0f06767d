import GateBench.Proofs.Tally

/-!
Aggregation in closed form.  Of the events that arrive in a run, the first whose index is a shot are
counted, as many as there are shots, and all others are rejected.  The order of the events decides
only which of them are counted where there are too many.
-/

namespace GateBench

open Message

/-! ### Histograms of labels -/

namespace Histogram

/-- A histogram of labels has a bucket for each of them and no other. -/
theorem mem_ofLabels_iff (labels : List String) {label : String} {count : Nat} :
    (label, count) ∈ (ofLabels labels).buckets ↔ 0 < count ∧ labels.count label = count := by
  have hlabels : (labels.map (·, 1)).map Prod.fst = labels := by simp [Function.comp_def]
  rw [ofLabels, mem_ofPairs_iff, hlabels, sumOf_ones, ← List.count_pos_iff]
  exact and_congr_left fun hcount => by rw [hcount]

/-- The order of labels makes no difference to their histogram. -/
theorem ofLabels_perm {labels others : List String} (hperm : labels.Perm others) :
    ofLabels labels = ofLabels others :=
  ofPairs_perm (hperm.map (·, 1))

end Histogram

/-! ### Aggregators -/

namespace Aggregator

variable {shots : Nat} {events : List RunEvent} {aggregator : Aggregator}

/-- Whether a refresh is due if one more event is counted at a time. -/
def isDue (aggregator : Aggregator) (now : Nat) : Bool :=
  max aggregator.policy.everyEvents 1 ≤ aggregator.pending + 1 ||
    aggregator.policy.minInterval ≤ now - aggregator.lastRefresh

/-- An aggregator that has counted one more event at a time. -/
def counting (aggregator : Aggregator) (now : Nat) (event : RunEvent) : Aggregator :=
  { aggregator with
    histogram := aggregator.histogram.add event.label 1
    total := aggregator.total + 1
    pending := if aggregator.isDue now then 0 else aggregator.pending + 1
    lastRefresh := if aggregator.isDue now then now else aggregator.lastRefresh }

theorem observe_of_accepts {event : RunEvent} (haccepts : aggregator.accepts event = true)
    (now : Nat) :
    aggregator.observe now event = (aggregator.isDue now, aggregator.counting now event) := by
  unfold observe
  rw [if_pos haccepts]
  change (aggregator.isDue now, if aggregator.isDue now then _ else _) = _
  unfold counting
  cases aggregator.isDue now <;> rfl

theorem observe_of_rejects {event : RunEvent} (hrejects : ¬aggregator.accepts event = true)
    (now : Nat) :
    aggregator.observe now event =
      (false, { aggregator with rejected := aggregator.rejected + 1 }) :=
  if_neg hrejects

/-- What an aggregator keeps account of: beside what it has counted, what it has not, and how many
of the events are new. -/
structure Accounts (shots : Nat) (events : List RunEvent) (aggregator : Aggregator) : Prop
    extends Holds shots events aggregator where
  rejected_add : aggregator.rejected + aggregator.total = events.length
  pending_le : aggregator.pending ≤ aggregator.total

theorem accounts_start (shots : Nat) (policy : RefreshPolicy) (created : Nat) :
    Accounts shots [] (start shots policy created) :=
  ⟨holds_start shots policy created, rfl, le_rfl⟩

theorem Accounts.observe (haccounts : aggregator.Accounts shots events) (now : Nat)
    (event : RunEvent) : (aggregator.observe now event).2.Accounts shots (events ++ [event]) := by
  have hrejected := haccounts.rejected_add
  have hpending := haccounts.pending_le
  refine ⟨haccounts.toHolds.observe now event, ?_, ?_⟩
  · rw [List.length_append, List.length_singleton, ← hrejected]
    by_cases haccepts : aggregator.accepts event = true
    · rw [observe_of_accepts haccepts]
      rfl
    · rw [observe_of_rejects haccepts]
      exact Nat.add_right_comm _ _ _
  · by_cases haccepts : aggregator.accepts event = true
    · rw [observe_of_accepts haccepts]
      dsimp only [counting]
      split_ifs
      · exact Nat.zero_le _
      · exact Nat.succ_le_succ hpending
    · rw [observe_of_rejects haccepts]
      exact hpending

/-- An aggregator after events that arrive, each at its time. -/
def observeAll (aggregator : Aggregator) (arrivals : List (Nat × RunEvent)) : Aggregator :=
  arrivals.foldl (fun aggregator arrival => (aggregator.observe arrival.1 arrival.2).2) aggregator

theorem Accounts.observeAll (haccounts : aggregator.Accounts shots events)
    (arrivals : List (Nat × RunEvent)) :
    (aggregator.observeAll arrivals).Accounts shots (events ++ arrivals.map Prod.snd) := by
  induction arrivals generalizing aggregator events with
  | nil => simpa [Aggregator.observeAll] using haccounts
  | cons arrival others ih =>
      have hothers := ih (haccounts.observe arrival.1 arrival.2)
      rwa [List.append_assoc] at hothers

theorem accounts_observeAll (shots : Nat) (policy : RefreshPolicy) (created : Nat)
    (arrivals : List (Nat × RunEvent)) :
    ((start shots policy created).observeAll arrivals).Accounts shots (arrivals.map Prod.snd) :=
  (accounts_start shots policy created).observeAll arrivals

namespace Accounts

theorem total_eq_min (haccounts : aggregator.Accounts shots events) :
    aggregator.total = min shots (events.countP (·.index < shots)) := by
  rw [haccounts.total_eq, length_counted]

theorem total_le (haccounts : aggregator.Accounts shots events) : aggregator.total ≤ shots :=
  haccounts.total_eq_min ▸ min_le_left _ _

theorem isComplete_iff (haccounts : aggregator.Accounts shots events) :
    aggregator.isComplete = true ↔ shots ≤ events.countP (·.index < shots) := by
  rw [isComplete, decide_eq_true_eq, haccounts.shots_eq, haccounts.total_eq_min]
  exact min_eq_left_iff

/-- The histogram is that of the first events in range. -/
theorem histogram_eq_take (haccounts : aggregator.Accounts shots events) :
    aggregator.histogram =
      .ofLabels (((events.filter (·.index < shots)).take aggregator.total).map (·.label)) := by
  rw [haccounts.histogram_eq, haccounts.total_eq, counted, List.length_take,
    ← List.take_eq_take_min]

theorem total_histogram (haccounts : aggregator.Accounts shots events) :
    aggregator.histogram.total = aggregator.total := by
  rw [haccounts.histogram_eq, Histogram.total_ofLabels, List.length_map, haccounts.total_eq]

/-- The number of events that were counted and the number of those that were not depend on how many
of the events are in range only. -/
theorem eq_of_perm (haccounts : aggregator.Accounts shots events) {other : Aggregator}
    {others : List RunEvent} (hothers : other.Accounts shots others) (hperm : others.Perm events) :
    other.total = aggregator.total ∧ other.rejected = aggregator.rejected := by
  have htotal : other.total = aggregator.total := by
    rw [hothers.total_eq_min, haccounts.total_eq_min, hperm.countP_eq]
  have hrejected : other.rejected + aggregator.total = aggregator.rejected + aggregator.total := by
    rw [haccounts.rejected_add, ← htotal, hothers.rejected_add, hperm.length_eq]
  exact ⟨htotal, Nat.add_right_cancel hrejected⟩

/-- Where there are shots for all events in range, their order makes no difference. -/
theorem histogram_eq_of_perm (haccounts : aggregator.Accounts shots events) {other : Aggregator}
    {others : List RunEvent} (hothers : other.Accounts shots others) (hperm : others.Perm events)
    (hroom : (events.filter (·.index < shots)).length ≤ shots) :
    other.histogram = aggregator.histogram := by
  have hfilter := hperm.filter (·.index < shots)
  have hcounted : (counted shots others).Perm (counted shots events) := by
    rw [counted, counted, List.take_of_length_le hroom,
      List.take_of_length_le (hfilter.length_eq ▸ hroom)]
    exact hfilter
  rw [hothers.histogram_eq, haccounts.histogram_eq]
  exact Histogram.ofLabels_perm (hcounted.map _)

end Accounts

theorem rejected_le_observe (aggregator : Aggregator) (now : Nat) (event : RunEvent) :
    aggregator.rejected ≤ (aggregator.observe now event).2.rejected := by
  by_cases haccepts : aggregator.accepts event = true
  · rw [observe_of_accepts haccepts]
    exact le_rfl
  · rw [observe_of_rejects haccepts]
    exact Nat.le_succ _

theorem rejected_le_observeAll (aggregator : Aggregator) (arrivals : List (Nat × RunEvent)) :
    aggregator.rejected ≤ (aggregator.observeAll arrivals).rejected := by
  induction arrivals generalizing aggregator with
  | nil => exact le_rfl
  | cons arrival others ih =>
      exact (aggregator.rejected_le_observe arrival.1 arrival.2).trans (ih _)

theorem observeAll_append (aggregator : Aggregator) (earlier later : List (Nat × RunEvent)) :
    aggregator.observeAll (earlier ++ later) = (aggregator.observeAll earlier).observeAll later :=
  List.foldl_append

/-- Every counter of an aggregator fits into thirty-two bits. -/
structure FitsHalfWords (aggregator : Aggregator) : Prop where
  pending_le : aggregator.pending ≤ aggregator.total
  total_lt : aggregator.total < UInt32.size
  rejected_lt : aggregator.rejected < UInt32.size

/-- The number of events that are rejected only grows, so it fits at all times if it does in the
end. -/
theorem fitsHalfWords_of_prefix {policy : RefreshPolicy} {created : Nat}
    {arrivals earlier : List (Nat × RunEvent)} (hshots : shots < UInt32.size)
    (hrejected : ((start shots policy created).observeAll arrivals).rejected < UInt32.size)
    (hearlier : earlier <+: arrivals) :
    ((start shots policy created).observeAll earlier).FitsHalfWords := by
  have haccounts := accounts_observeAll shots policy created earlier
  obtain ⟨later, rfl⟩ := hearlier
  rw [observeAll_append] at hrejected
  exact ⟨haccounts.pending_le, haccounts.total_le.trans_lt hshots,
    (rejected_le_observeAll _ later).trans_lt hrejected⟩

/-- How often a label is among those of events. -/
theorem count_map_label (events : List RunEvent) (label : String) :
    (events.map (·.label)).count label = events.countP (·.label = label) := by
  rw [List.count_eq_countP, List.countP_map]
  rfl

/-- An aggregator counts the first events in range, as many as there are shots, label by label, and
rejects all others.  In another order, and at other times, as many are counted and rejected; where
there are shots for all events in range, the histogram is the same too.  Unless more events are
rejected than thirty-two bits can count, no counter passes thirty-two bits at any time. -/
theorem aggregation_closedForm (shots : Nat) (policy : RefreshPolicy) (created : Nat)
    (arrivals : List (Nat × RunEvent)) :
    let events := arrivals.map Prod.snd
    let inRange := events.filter (·.index < shots)
    let final := (start shots policy created).observeAll arrivals
    final.total = min shots inRange.length ∧
      final.rejected + final.total = events.length ∧
      (∀ label, final.histogram.count label =
        (inRange.take final.total).countP (·.label = label)) ∧
      (∀ label count, (label, count) ∈ final.histogram.buckets ↔
        0 < count ∧ (inRange.take final.total).countP (·.label = label) = count) ∧
      final.histogram.total = final.total ∧ final.total ≤ shots ∧
      (final.isComplete = true ↔ shots ≤ inRange.length) ∧
      (∀ others : List (Nat × RunEvent), (others.map Prod.snd).Perm events →
        let again := (start shots policy created).observeAll others
        again.total = final.total ∧ again.rejected = final.rejected ∧
          (inRange.length ≤ shots → again.histogram = final.histogram)) ∧
      (shots < UInt32.size → final.rejected < UInt32.size →
        ∀ earlier, earlier <+: arrivals →
          ((start shots policy created).observeAll earlier).FitsHalfWords) := by
  intro events inRange final
  have haccounts : final.Accounts shots events := accounts_observeAll shots policy created arrivals
  have hinRange : events.countP (·.index < shots) = inRange.length := List.countP_eq_length_filter
  refine ⟨hinRange ▸ haccounts.total_eq_min, haccounts.rejected_add, ?_, ?_,
    haccounts.total_histogram, haccounts.total_le, hinRange ▸ haccounts.isComplete_iff, ?_,
    fun hshots hrejected _ hearlier => fitsHalfWords_of_prefix hshots hrejected hearlier⟩
  · intro label
    rw [haccounts.histogram_eq_take, Histogram.count_ofLabels, count_map_label]
  · intro label count
    rw [haccounts.histogram_eq_take, Histogram.mem_ofLabels_iff, count_map_label]
  · intro others hperm again
    have hagain : again.Accounts shots (others.map Prod.snd) :=
      accounts_observeAll shots policy created others
    obtain ⟨htotal, hrejected⟩ := haccounts.eq_of_perm hagain hperm
    exact ⟨htotal, hrejected, haccounts.histogram_eq_of_perm hagain hperm⟩

/-- Events of a run of two shots: one is no shot, one is told twice, and one comes too late. -/
def crowded : List (Nat × RunEvent) :=
  [(0, ⟨"1", 5⟩), (0, ⟨"1", 0⟩), (3, ⟨"0", 0⟩), (9, ⟨"1", 1⟩)]

theorem aggregation_closedForm_crowded :
    (crowded.reverse.map Prod.snd).Perm (crowded.map Prod.snd) ∧
      ((start 2 {} 0).observeAll crowded).histogram.buckets = [("0", 1), ("1", 1)] ∧
      ((start 2 {} 0).observeAll crowded.reverse).total = 2 ∧
      ((start 2 {} 0).observeAll crowded.reverse).rejected = 2 ∧
      ((start 2 {} 0).observeAll crowded.dropLast).FitsHalfWords ∧
      ((start 3 {} 0).observeAll crowded.reverse).histogram =
        ((start 3 {} 0).observeAll crowded).histogram := by
  have hperm : (crowded.reverse.map Prod.snd).Perm (crowded.map Prod.snd) :=
    (List.reverse_perm crowded).map Prod.snd
  obtain ⟨-, -, -, -, -, -, -, hagain, hfits⟩ := aggregation_closedForm 2 {} 0 crowded
  obtain ⟨htotal, hrejected, -⟩ := hagain crowded.reverse hperm
  obtain ⟨-, -, -, -, -, -, -, hroomy, -⟩ := aggregation_closedForm 3 {} 0 crowded
  obtain ⟨-, -, hhistogram⟩ := hroomy crowded.reverse hperm
  refine ⟨hperm, by decide, htotal.trans (by decide), hrejected.trans (by decide), ?_, ?_⟩
  · exact hfits (by decide) (by decide) crowded.dropLast (List.dropLast_prefix crowded)
  · exact hhistogram (by decide)

end Aggregator

end GateBench
