import GateBench.Histogram.Basic
import GateBench.Message.Response

/-!
Folding the events of one run into a histogram.  Events beyond the number of shots, and events whose
index is no shot, are rejected; the others are counted.  The aggregator also decides when a display
is due for a refresh: after a number of events counted, or after a time, whichever comes first.
-/

namespace GateBench

/-- When a display is refreshed: after so many counted events, or once so many milliseconds have
passed. -/
structure RefreshPolicy where
  everyEvents : Nat := 100
  minInterval : Nat := 250
deriving DecidableEq, Repr

/-- Refresh at every counted event. -/
def RefreshPolicy.everyEvent : RefreshPolicy :=
  ⟨1, 0⟩

/-- The state of one run's aggregation.  `pending` counts the events since the last refresh, which
was at `lastRefresh`. -/
structure Aggregator where
  shots : Nat
  policy : RefreshPolicy
  histogram : Histogram
  total : Nat
  rejected : Nat
  pending : Nat
  lastRefresh : Nat
deriving DecidableEq, Repr

namespace Aggregator

/-- The start of a run at a time. -/
def start (shots : Nat) (policy : RefreshPolicy) (now : Nat) : Aggregator :=
  ⟨shots, policy, .empty, 0, 0, 0, now⟩

/-- Whether an event is counted. -/
def accepts (aggregator : Aggregator) (event : Message.RunEvent) : Bool :=
  event.index < aggregator.shots && aggregator.total < aggregator.shots

/-- Count an event that arrives at a time, or reject it.  The answer says whether a refresh is due;
a rejected event never makes one due. -/
def observe (aggregator : Aggregator) (now : Nat) (event : Message.RunEvent) :
    Bool × Aggregator :=
  if aggregator.accepts event then
    let pending := aggregator.pending + 1
    let due := max aggregator.policy.everyEvents 1 ≤ pending ||
      aggregator.policy.minInterval ≤ now - aggregator.lastRefresh
    let counted : Aggregator :=
      { aggregator with
        histogram := aggregator.histogram.add event.label 1
        total := aggregator.total + 1
        pending }
    (due, if due then { counted with pending := 0, lastRefresh := now } else counted)
  else (false, { aggregator with rejected := aggregator.rejected + 1 })

/-- Whether every shot has been counted. -/
def isComplete (aggregator : Aggregator) : Bool :=
  aggregator.total = aggregator.shots

end Aggregator

end GateBench
