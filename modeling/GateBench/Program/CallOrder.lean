/-!
The order of operations along their calls.  A depth-first walk over the call graph lists every
operation behind the operations it calls, and reports a cycle at each call that leads back to an
operation whose walk is still going on.
-/

namespace GateBench.Program

/-- A call: the operation called, and the line it is called on. -/
structure CallSite where
  callee : Nat
  line : Nat
deriving DecidableEq, Repr

/-- An operation whose walk is going on, and its calls that are still to be followed. -/
structure Frame where
  operation : Nat
  pending : List CallSite
deriving DecidableEq, Repr

/-- A cycle of calls: operations that each call the next, the last one calling the first, and the
line of that closing call. -/
structure CallCycle where
  path : List Nat
  line : Nat
deriving DecidableEq, Repr

/-- What a walk has found: operations behind their callees, and cycles. -/
structure CallOrder where
  order : List Nat
  cycles : List CallCycle
deriving DecidableEq, Repr

/-- The operations from `callee` to the innermost one, outermost first. -/
def pathFrom (callee : Nat) (frames : List Frame) : List Nat :=
  (callee :: ((frames.map (·.operation)).takeWhile (· ≠ callee)).reverse)

/-- What is left to do in the frames of a walk: a frame counts one, and so does each of its pending
calls. -/
def pendingWork : List Frame → Nat
  | [] => 0
  | frame :: outer => frame.pending.length + 1 + pendingWork outer

/-- Walk on.  `unvisited` holds the operations not met yet, in ascending order, `frames` those whose
walk is going on, innermost first; `order` and `cycles` are what was found, latest first.  A walk
starts anew at the first unvisited operation when no frame is left. -/
def walk (calls : Nat → List CallSite) (unvisited : List Nat) (frames : List Frame)
    (order : List Nat) (cycles : List CallCycle) : CallOrder :=
  match frames with
  | [] =>
    match unvisited with
    | [] => ⟨order.reverse, cycles.reverse⟩
    | root :: others => walk calls others [⟨root, calls root⟩] order cycles
  | ⟨operation, []⟩ :: outer => walk calls unvisited outer (operation :: order) cycles
  | ⟨operation, site :: pending⟩ :: outer =>
    let active := ⟨operation, pending⟩ :: outer
    if site.callee ∈ unvisited then
      walk calls (unvisited.erase site.callee) (⟨site.callee, calls site.callee⟩ :: active) order
        cycles
    else if site.callee ∈ active.map (·.operation) then
      walk calls unvisited active order (⟨pathFrom site.callee active, site.line⟩ :: cycles)
    else walk calls unvisited active order cycles
termination_by (unvisited.length, pendingWork frames)
decreasing_by
  · exact Prod.Lex.left _ _ (by simp)
  · exact Prod.Lex.right _ (by simp [pendingWork])
  · exact Prod.Lex.left _ _ (by
      have : 0 < unvisited.length := List.length_pos_of_mem ‹_›
      rw [List.length_erase_of_mem ‹_›]
      omega)
  · exact Prod.Lex.right _ (by simp [pendingWork])
  · exact Prod.Lex.right _ (by simp [pendingWork])

/-- The order of the operations `0` to `count - 1` along their calls. -/
def callOrder (count : Nat) (calls : Nat → List CallSite) : CallOrder :=
  walk calls (List.range count) [] [] []

end GateBench.Program
