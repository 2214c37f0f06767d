import GateBench.Proofs.Aggregation

/-!
When a display is due for a refresh.  The decision about an event is read off the history of the
run: which events were counted since the last refresh, and when that was.  Events that are rejected
leave no trace in it.
-/

namespace GateBench

open Message

/-- What happens in a run: time passes, or an event arrives. -/
inductive Occurrence where
  | passes (time : Nat)
  | arrives (event : RunEvent)
deriving DecidableEq, Repr

/-- An event that was observed: when, whether it was counted, and whether a refresh was due. -/
structure Observation where
  time : Nat
  event : RunEvent
  counted : Bool
  due : Bool
deriving DecidableEq, Repr

namespace Observation

/-- The observations since the last refresh, or since the beginning, latest first. -/
def sinceRefresh (history : List Observation) : List Observation :=
  history.reverse.takeWhile (!·.due)

/-- The time of the last refresh, or of the beginning. -/
def refreshedAt (created : Nat) (history : List Observation) : Nat :=
  ((history.reverse.find? (·.due)).map (·.time)).getD created

theorem sinceRefresh_concat (history : List Observation) (observation : Observation) :
    sinceRefresh (history ++ [observation]) =
      if observation.due then [] else observation :: sinceRefresh history := by
  unfold sinceRefresh
  cases hdue : observation.due <;> simp [hdue]

theorem refreshedAt_concat (created : Nat) (history : List Observation)
    (observation : Observation) :
    refreshedAt created (history ++ [observation]) =
      if observation.due then observation.time else refreshedAt created history := by
  unfold refreshedAt
  cases hdue : observation.due <;> simp [hdue]

/-- Observations at which no refresh was due all lie behind the last refresh. -/
theorem sinceRefresh_append {stretch : List Observation}
    (hstretch : ∀ observation ∈ stretch, observation.due = false) (history : List Observation) :
    sinceRefresh (history ++ stretch) = stretch.reverse ++ sinceRefresh history := by
  unfold sinceRefresh
  rw [List.reverse_append, List.takeWhile_append_of_pos]
  simpa using hstretch

/-- How an observation follows from those before it.  An event is counted if it is in range and so
were fewer events before it than there are shots.  A refresh is due at a counted event if it is the
last of as many as the policy says since the last refresh, or if the interval has passed since
then. -/
structure Follows (shots : Nat) (policy : RefreshPolicy) (created : Nat)
    (earlier : List Observation) (observation : Observation) : Prop where
  counted_iff : observation.counted = true ↔
    observation.event.index < shots ∧ earlier.countP (·.event.index < shots) < shots
  due_iff : observation.due = true ↔ observation.counted = true ∧
    (max policy.everyEvents 1 ≤ (sinceRefresh earlier).countP (·.counted) + 1 ∨
      refreshedAt created earlier + policy.minInterval ≤ observation.time)

/-- Where observations follow from those before them, a refresh is due at one of any counted events
in a row that are as many as the policy says. -/
theorem exists_due_of_follows {shots created : Nat} {policy : RefreshPolicy}
    {history : List Observation}
    (hfollows : ∀ earlier observation later, history = earlier ++ observation :: later →
      observation.Follows shots policy created earlier)
    {earlier stretch later : List Observation} (hhistory : history = earlier ++ stretch ++ later)
    (hcount : max policy.everyEvents 1 ≤ stretch.countP (·.counted)) :
    ∃ observation ∈ stretch, observation.counted = true ∧ observation.due = true := by
  induction stretch using List.reverseRecOn generalizing later with
  | nil => exact absurd hcount (by simp)
  | append_singleton stretch last ih =>
      by_cases hlast : last.counted = true
      -- counted events without a refresh among them would all lie behind the last refresh
      · by_contra hnone
        have hundue : ∀ observation ∈ stretch ++ [last], observation.due = false := by
          intro observation hmem
          obtain ⟨first, rest, hsplit⟩ := List.append_of_mem hmem
          have hobservation := hfollows (earlier ++ first) observation (rest ++ later)
            (by rw [hhistory, hsplit]; simp)
          refine Bool.eq_false_of_not_eq_true fun hdue => hnone ⟨observation, hmem, ?_, hdue⟩
          exact (hobservation.due_iff.mp hdue).1
        have hobservation := hfollows (earlier ++ stretch) last later
          (by rw [hhistory]; simp)
        have hsince : sinceRefresh (earlier ++ stretch) = stretch.reverse ++ sinceRefresh earlier :=
          sinceRefresh_append
            (fun observation hmem => hundue observation (List.mem_append_left _ hmem)) earlier
        have hdue : last.due = true := by
          refine hobservation.due_iff.mpr ⟨hlast, .inl (hcount.trans ?_)⟩
          rw [hsince, List.countP_append, List.countP_append, List.countP_reverse,
            List.countP_singleton, if_pos hlast]
          omega
        rw [hundue last (by simp)] at hdue
        nomatch hdue
      · rw [List.countP_append, List.countP_singleton, if_neg hlast] at hcount
        have hbefore : history = earlier ++ stretch ++ last :: later := by
          rw [hhistory]
          simp
        obtain ⟨observation, hmem, hdue⟩ := ih hbefore hcount
        exact ⟨observation, List.mem_append_left _ hmem, hdue⟩

end Observation

namespace Aggregator

open Observation

/-- What is observed of an event that arrives at a time. -/
def observation (aggregator : Aggregator) (now : Nat) (event : RunEvent) : Observation :=
  ⟨now, event, aggregator.accepts event, (aggregator.observe now event).1⟩

theorem observation_of_accepts {aggregator : Aggregator} {event : RunEvent}
    (haccepts : aggregator.accepts event = true) (now : Nat) :
    aggregator.observation now event = ⟨now, event, true, aggregator.isDue now⟩ := by
  rw [observation, observe_of_accepts haccepts, haccepts]

theorem observation_of_rejects {aggregator : Aggregator} {event : RunEvent}
    (hrejects : ¬aggregator.accepts event = true) (now : Nat) :
    aggregator.observation now event = ⟨now, event, false, false⟩ := by
  rw [observation, observe_of_rejects hrejects, Bool.eq_false_of_not_eq_true hrejects]

/-- What is observed, in order, of the events among the occurrences from a time on. -/
def watch (aggregator : Aggregator) (now : Nat) : List Occurrence → List Observation
  | [] => []
  | .passes time :: others => watch aggregator (now + time) others
  | .arrives event :: others =>
    aggregator.observation now event :: watch (aggregator.observe now event).2 now others

variable {shots : Nat} {policy : RefreshPolicy} {created now : Nat} {history : List Observation}
  {aggregator : Aggregator}

/-- What an aggregator remembers at a time of the history of its run. -/
structure Remembers (shots : Nat) (policy : RefreshPolicy) (created : Nat)
    (history : List Observation) (now : Nat) (aggregator : Aggregator) : Prop where
  accounts : aggregator.Accounts shots (history.map (·.event))
  policy_eq : aggregator.policy = policy
  pending_eq : aggregator.pending = (sinceRefresh history).countP (·.counted)
  lastRefresh_eq : aggregator.lastRefresh = refreshedAt created history
  lastRefresh_le : aggregator.lastRefresh ≤ now

theorem remembers_start (shots : Nat) (policy : RefreshPolicy) (created : Nat) :
    Remembers shots policy created [] created (start shots policy created) :=
  ⟨accounts_start shots policy created, rfl, rfl, rfl, le_rfl⟩

namespace Remembers

theorem passes (hremembers : aggregator.Remembers shots policy created history now) (time : Nat) :
    aggregator.Remembers shots policy created history (now + time) :=
  { hremembers with lastRefresh_le := hremembers.lastRefresh_le.trans (Nat.le_add_right _ _) }

/-- What is observed next follows from what was observed before. -/
theorem follows (hremembers : aggregator.Remembers shots policy created history now)
    (event : RunEvent) :
    (aggregator.observation now event).Follows shots policy created history := by
  constructor
  · have htotal := hremembers.accounts.total_eq_min
    rw [List.countP_map] at htotal
    change aggregator.accepts event = true ↔ _
    rw [accepts, Bool.and_eq_true, decide_eq_true_eq, decide_eq_true_eq,
      hremembers.accounts.shots_eq, htotal, min_lt_iff, or_iff_right (lt_irrefl shots)]
    rfl
  · change (aggregator.observe now event).1 = true ↔ aggregator.accepts event = true ∧ _
    by_cases haccepts : aggregator.accepts event = true
    · rw [observe_of_accepts haccepts, and_iff_right haccepts, isDue, Bool.or_eq_true,
        decide_eq_true_eq, decide_eq_true_eq, hremembers.policy_eq, hremembers.pending_eq,
        Nat.le_sub_iff_add_le' hremembers.lastRefresh_le, hremembers.lastRefresh_eq]
      rfl
    · rw [observe_of_rejects haccepts]
      exact iff_of_false Bool.false_ne_true fun h => haccepts h.1

theorem observe (hremembers : aggregator.Remembers shots policy created history now)
    (event : RunEvent) :
    (aggregator.observe now event).2.Remembers shots policy created
      (history ++ [aggregator.observation now event]) now := by
  have haccounts : (aggregator.observe now event).2.Accounts shots
      ((history ++ [aggregator.observation now event]).map (·.event)) := by
    rw [List.map_append]
    exact hremembers.accounts.observe now event
  by_cases haccepts : aggregator.accepts event = true
  · rw [observation_of_accepts haccepts, observe_of_accepts haccepts] at haccounts ⊢
    refine ⟨haccounts, hremembers.policy_eq, ?_, ?_, ?_⟩
    · rw [sinceRefresh_concat]
      dsimp only [counting]
      split_ifs
      · rfl
      · rw [hremembers.pending_eq, List.countP_cons_of_pos rfl]
    · rw [refreshedAt_concat, ← hremembers.lastRefresh_eq]
      rfl
    · dsimp only [counting]
      split_ifs
      · exact le_rfl
      · exact hremembers.lastRefresh_le
  -- an event that is rejected lies behind the last refresh, but is none of those that are counted
  · rw [observation_of_rejects haccepts, observe_of_rejects haccepts] at haccounts ⊢
    refine ⟨haccounts, hremembers.policy_eq, ?_, ?_, hremembers.lastRefresh_le⟩
    · rw [sinceRefresh_concat, if_neg Bool.false_ne_true,
        List.countP_cons_of_neg Bool.false_ne_true]
      exact hremembers.pending_eq
    · rw [refreshedAt_concat, if_neg Bool.false_ne_true]
      exact hremembers.lastRefresh_eq

end Remembers

/-- The time and the aggregator after some occurrences. -/
def reach (aggregator : Aggregator) (now : Nat) : List Occurrence → Nat × Aggregator
  | [] => (now, aggregator)
  | .passes time :: others => reach aggregator (now + time) others
  | .arrives event :: others => reach (aggregator.observe now event).2 now others

theorem watch_append (aggregator : Aggregator) (now : Nat) (before after : List Occurrence) :
    aggregator.watch now (before ++ after) =
      aggregator.watch now before ++
        (aggregator.reach now before).2.watch (aggregator.reach now before).1 after := by
  induction before generalizing aggregator now with
  | nil => rfl
  | cons occurrence others ih =>
      cases occurrence with
      | passes time => exact ih aggregator (now + time)
      | arrives event =>
          exact congrArg (aggregator.observation now event :: ·)
            (ih (aggregator.observe now event).2 now)

/-- After any occurrences, an aggregator remembers what was observed. -/
theorem Remembers.reach (hremembers : aggregator.Remembers shots policy created history now)
    (occurrences : List Occurrence) :
    (aggregator.reach now occurrences).2.Remembers shots policy created
      (history ++ aggregator.watch now occurrences) (aggregator.reach now occurrences).1 := by
  induction occurrences generalizing aggregator now history with
  | nil => rwa [watch, List.append_nil]
  | cons occurrence others ih =>
      cases occurrence with
      | passes time => exact ih (hremembers.passes time)
      | arrives event =>
          have hothers := ih (hremembers.observe event)
          rwa [List.append_assoc] at hothers

/-- Each observation is of an event that arrives, behind the occurrences that were observed
before. -/
theorem exists_arrives_of_watch {occurrences : List Occurrence} {earlier later : List Observation}
    {observation : Observation}
    (hwatch : aggregator.watch now occurrences = earlier ++ observation :: later) :
    ∃ before after, occurrences = before ++ .arrives observation.event :: after ∧
      aggregator.watch now before = earlier := by
  induction occurrences generalizing aggregator now earlier with
  | nil => simp [watch] at hwatch
  | cons occurrence others ih =>
      cases occurrence with
      | passes time =>
          obtain ⟨before, after, rfl, hearlier⟩ := ih hwatch
          exact ⟨.passes time :: before, after, rfl, hearlier⟩
      | arrives event =>
          cases earlier with
          | nil =>
              obtain ⟨rfl, -⟩ := List.cons_eq_cons.mp hwatch
              exact ⟨[], others, rfl, rfl⟩
          | cons first earlier =>
              obtain ⟨rfl, hothers⟩ := List.cons_eq_cons.mp hwatch
              obtain ⟨before, after, rfl, rfl⟩ := ih hothers
              exact ⟨.arrives event :: before, after, rfl, rfl⟩

/-- The event of an observation is observed where the occurrences before it lead to, and what is
observed later follows from there. -/
theorem exists_reach_of_watch {occurrences : List Occurrence} {earlier later : List Observation}
    {observation : Observation}
    (hwatch : aggregator.watch now occurrences = earlier ++ observation :: later) :
    ∃ before after, occurrences = before ++ .arrives observation.event :: after ∧
      aggregator.watch now before = earlier ∧
      (aggregator.reach now before).2.watch (aggregator.reach now before).1
        (.arrives observation.event :: after) = observation :: later := by
  obtain ⟨before, after, rfl, hearlier⟩ := exists_arrives_of_watch hwatch
  rw [watch_append, hearlier] at hwatch
  exact ⟨before, after, rfl, hearlier, List.append_cancel_left hwatch⟩

/-- How many events were rejected makes no difference to what is observed. -/
theorem watch_rejected (aggregator : Aggregator) (rejected now : Nat)
    (occurrences : List Occurrence) :
    watch { aggregator with rejected } now occurrences = aggregator.watch now occurrences := by
  induction occurrences generalizing aggregator rejected now with
  | nil => rfl
  | cons occurrence others ih =>
      cases occurrence with
      | passes time => exact ih aggregator rejected (now + time)
      | arrives event =>
          by_cases haccepts : aggregator.accepts event = true
          · have hsame : accepts { aggregator with rejected } event = true := haccepts
            rw [watch, watch, observation_of_accepts haccepts, observation_of_accepts hsame,
              observe_of_accepts haccepts, observe_of_accepts hsame]
            exact congrArg _ (ih (aggregator.counting now event) rejected now)
          · have hsame : ¬accepts { aggregator with rejected } event = true := haccepts
            rw [watch, watch, observation_of_rejects haccepts, observation_of_rejects hsame,
              observe_of_rejects haccepts, observe_of_rejects hsame]
            exact congrArg _ ((ih aggregator (rejected + 1) now).trans
              (ih aggregator (aggregator.rejected + 1) now).symm)

/-- Without an event that is rejected, all other events are observed in the same way. -/
theorem watch_of_not_counted {event : RunEvent}
    (hrejects : (aggregator.observation now event).counted = false) (after : List Occurrence) :
    aggregator.watch now (.arrives event :: after) =
      aggregator.observation now event :: aggregator.watch now after := by
  have hnot : ¬aggregator.accepts event = true := Bool.not_eq_true _ ▸ hrejects
  rw [watch, observe_of_rejects hnot, watch_rejected]

/-- Whether a refresh is due is read off the history of a run.  Without an event that is rejected,
all others are observed in the same way; and of any counted events in a row that are as many as the
policy says, one makes a refresh due. -/
theorem refreshes_by_history (shots : Nat) (policy : RefreshPolicy) (created : Nat)
    (occurrences : List Occurrence) :
    let history := (start shots policy created).watch created occurrences
    (∀ earlier observation later, history = earlier ++ observation :: later →
      observation.Follows shots policy created earlier ∧
      (observation.counted = false → observation.due = false ∧
        ∃ before after, occurrences = before ++ .arrives observation.event :: after ∧
          (start shots policy created).watch created before = earlier ∧
          (start shots policy created).watch created (before ++ after) = earlier ++ later)) ∧
    ∀ earlier stretch later, history = earlier ++ stretch ++ later →
      max policy.everyEvents 1 ≤ stretch.countP (·.counted) →
      ∃ observation ∈ stretch, observation.counted = true ∧ observation.due = true := by
  intro history
  have hfollows : ∀ earlier observation later, history = earlier ++ observation :: later →
      observation.Follows shots policy created earlier := by
    intro earlier observation later hhistory
    obtain ⟨before, after, -, rfl, hnext⟩ := exists_reach_of_watch hhistory
    rw [← (List.cons_eq_cons.mp hnext).1]
    exact ((remembers_start shots policy created).reach before).follows observation.event
  refine ⟨?_, fun _ _ _ hhistory hcount => exists_due_of_follows hfollows hhistory hcount⟩
  intro earlier observation later hhistory
  have hobservation := hfollows earlier observation later hhistory
  refine ⟨hobservation, fun hrejected => ⟨?_, ?_⟩⟩
  · refine Bool.eq_false_of_not_eq_true fun hdue => ?_
    rw [(hobservation.due_iff.mp hdue).1] at hrejected
    nomatch hrejected
  · obtain ⟨before, after, rfl, rfl, hnext⟩ := exists_reach_of_watch hhistory
    obtain ⟨hsame, -⟩ := List.cons_eq_cons.mp hnext
    rw [watch_of_not_counted (hsame ▸ hrejected)] at hnext
    refine ⟨before, after, rfl, rfl, ?_⟩
    rw [watch_append, (List.cons_eq_cons.mp hnext).2]

/-- A run of three shots with pauses, one event of which is no shot. -/
def halting : List Occurrence :=
  [.arrives ⟨"0", 0⟩, .passes 60, .arrives ⟨"0", 7⟩, .passes 60, .arrives ⟨"1", 1⟩,
    .arrives ⟨"1", 2⟩]

/-- A refresh at every third event, or after a hundred milliseconds. -/
def seldom : RefreshPolicy :=
  ⟨3, 100⟩

/-- The second counted event comes more than a hundred milliseconds after the run was begun; the
rejected one before it makes no difference. -/
theorem refreshes_by_history_halting :
    ((start 3 seldom 0).watch 0 halting).map (·.due) = [false, false, true, false] ∧
      (⟨120, ⟨"1", 1⟩, true, true⟩ : Observation).Follows 3 seldom 0
        [⟨0, ⟨"0", 0⟩, true, false⟩, ⟨60, ⟨"0", 7⟩, false, false⟩] ∧
      ∃ before after, halting = before ++ .arrives ⟨"0", 7⟩ :: after ∧
        ((start 3 seldom 0).watch 0 (before ++ after)).map (·.due) = [false, true, false] ∧
        ∃ observation ∈ (start 3 seldom 0).watch 0 halting,
          observation.counted = true ∧ observation.due = true := by
  have hhistory : (start 3 seldom 0).watch 0 halting =
      [⟨0, ⟨"0", 0⟩, true, false⟩] ++ ⟨60, ⟨"0", 7⟩, false, false⟩ ::
        [⟨120, ⟨"1", 1⟩, true, true⟩, ⟨120, ⟨"1", 2⟩, true, false⟩] := by decide
  obtain ⟨hlaw, hstretch⟩ := refreshes_by_history 3 seldom 0 halting
  obtain ⟨hfollows, -⟩ :=
    hlaw [⟨0, ⟨"0", 0⟩, true, false⟩, ⟨60, ⟨"0", 7⟩, false, false⟩] _ _ hhistory
  obtain ⟨-, hrejected⟩ := hlaw _ _ _ hhistory
  obtain ⟨-, before, after, hsplit, -, hwithout⟩ := hrejected rfl
  refine ⟨by rw [hhistory]; rfl, hfollows, before, after, hsplit, by rw [hwithout]; rfl, ?_⟩
  exact hstretch [] _ [] (List.append_nil _).symm (by rw [hhistory]; decide)

end Aggregator

end GateBench
