import GateBench.Proofs.CallWalk
import Mathlib.Data.List.Infix

/-!
The forest of a depth-first walk.  Every operation is entered once, on a stack that stays as it is
until the operation is left; the stacks of all operations are the branches of a forest.  A call is
reported when it leads back into the stack of its operation, so the reports are determined by the
forest: a cycle is reported once for each call that closes it, and never from another start.
-/

namespace GateBench.Program

/-- The cycle that a call of the innermost operation of a stack closes, from the operation called
to the innermost one. -/
def cyclePath (callee : Nat) (stack : List Nat) : List Nat :=
  callee :: (stack.takeWhile (· ≠ callee)).reverse

/-- What a walk reports of calls of the innermost operation of a stack: a cycle for each call that
leads back into the stack. -/
def reportsOf (stack : List Nat) (sites : List CallSite) : List CallCycle :=
  (sites.filter (·.callee ∈ stack)).map fun site => ⟨cyclePath site.callee stack, site.line⟩

/-- The cycles among `cycles` that calls of an operation close. -/
def closedBy (cycles : List CallCycle) (operation : Nat) : List CallCycle :=
  cycles.filter (·.path.getLast? = some operation)

/-- The calls that are still to be followed in the frame of an operation; none without a frame. -/
def pendingAt (frames : List Frame) (operation : Nat) : List CallSite :=
  ((frames.find? (·.operation = operation)).map (·.pending)).getD []

/-- The branches of a forest, each from an operation outwards: every operation is the innermost of
one branch only, and what is around it is a branch as well. -/
structure IsForest (branches : List (List Nat)) : Prop where
  outer : ∀ operation outer, operation :: outer ∈ branches → outer = [] ∨ outer ∈ branches
  once : ∀ operation outer outer', operation :: outer ∈ branches → operation :: outer' ∈ branches →
    outer = outer'

/-- What a walk keeps of the stacks that operations were entered on.  The calls of an operation
that were followed are those whose cycles are reported; `cycles` has the latest one first. -/
structure Charted (calls : Nat → List CallSite) (count : Nat) (unvisited : List Nat)
    (frames : List Frame) (cycles : List CallCycle) (branches : List (List Nat)) : Prop where
  forest : IsForest branches
  current : frames.map (·.operation) = [] ∨ frames.map (·.operation) ∈ branches
  entered : ∀ operation outer, operation :: outer ∈ branches → operation ∉ unvisited
  complete : ∀ operation < count, operation ∈ unvisited ∨ ∃ outer, operation :: outer ∈ branches
  reported : ∀ operation outer, operation :: outer ∈ branches →
    closedBy cycles.reverse operation ++
      reportsOf (operation :: outer) (pendingAt frames operation) =
        reportsOf (operation :: outer) (calls operation)
  unreported : ∀ operation ∈ unvisited, closedBy cycles.reverse operation = []

variable {calls : Nat → List CallSite} {count : Nat} {unvisited order : List Nat}
  {frames outer : List Frame} {operation other root : Nat} {pending sites : List CallSite}
  {site : CallSite} {cycle : CallCycle} {cycles : List CallCycle} {stack : List Nat}
  {branches : List (List Nat)}

/-! ### Small facts -/

theorem pathFrom_eq_cyclePath (callee : Nat) (frames : List Frame) :
    pathFrom callee frames = cyclePath callee (frames.map (·.operation)) := rfl

theorem closedBy_reverse_cons (cycle : CallCycle) (cycles : List CallCycle) (operation : Nat) :
    closedBy (cycle :: cycles).reverse operation =
      closedBy cycles.reverse operation ++
        if cycle.path.getLast? = some operation then [cycle] else [] := by
  simp only [closedBy, List.reverse_cons, List.filter_append]
  split <;> simp_all

theorem reportsOf_nil (stack : List Nat) : reportsOf stack [] = [] := rfl

theorem reportsOf_cons_of_mem (hmem : site.callee ∈ stack) :
    reportsOf stack (site :: sites) =
      ⟨cyclePath site.callee stack, site.line⟩ :: reportsOf stack sites := by
  simp [reportsOf, hmem]

theorem reportsOf_cons_of_not_mem (hmem : site.callee ∉ stack) :
    reportsOf stack (site :: sites) = reportsOf stack sites := by
  simp [reportsOf, hmem]

theorem pendingAt_cons_self (operation : Nat) (pending : List CallSite) (outer : List Frame) :
    pendingAt (⟨operation, pending⟩ :: outer) operation = pending := by
  simp [pendingAt]

theorem pendingAt_cons_of_ne (hne : operation ≠ other) :
    pendingAt (⟨operation, pending⟩ :: outer) other = pendingAt outer other := by
  simp [pendingAt, hne]

theorem pendingAt_eq_nil (hmem : operation ∉ frames.map (·.operation)) :
    pendingAt frames operation = [] := by
  have hnone : frames.find? (·.operation = operation) = none := by
    apply List.find?_eq_none.mpr
    intro frame hframe heq
    exact hmem (List.mem_map.mpr ⟨frame, hframe, of_decide_eq_true heq⟩)
  simp [pendingAt, hnone]

namespace Walking

theorem nodup (hwalking : Walking calls count unvisited frames order) :
    (unvisited ++ frames.map (·.operation)).Nodup := by
  have hplaces := hwalking.places.nodup_iff.mpr List.nodup_range
  exact (List.nodup_append.mp hplaces).1

theorem not_mem_frames (hwalking : Walking calls count unvisited frames order)
    (hunvisited : operation ∈ unvisited) : operation ∉ frames.map (·.operation) := by
  intro hframe
  exact (List.nodup_append.mp hwalking.nodup).2.2 _ hunvisited _ hframe rfl

theorem not_mem_outer (hwalking : Walking calls count unvisited (⟨operation, pending⟩ :: outer)
    order) : operation ∉ outer.map (·.operation) := by
  have hnodup := (List.nodup_append.mp hwalking.nodup).2.1
  exact (List.nodup_cons.mp hnodup).1

end Walking

/-! ### What each step of the walk keeps -/

/-- A new branch may be added for an operation that heads none, around which is a branch. -/
theorem IsForest.cons {outer : List Nat} (hforest : IsForest branches)
    (houter : outer = [] ∨ outer ∈ branches)
    (hfresh : ∀ outer', operation :: outer' ∉ branches) :
    IsForest ((operation :: outer) :: branches) where
  outer other outer' hmem := by
    rcases List.mem_cons.mp hmem with heq | hmem
    · rw [(List.cons.inj heq).2]
      exact houter.imp_right (List.mem_cons_of_mem _)
    · exact (hforest.outer other outer' hmem).imp_right (List.mem_cons_of_mem _)
  once other first second hfirst hsecond := by
    rcases List.mem_cons.mp hfirst with hnew | hold
    · rcases List.mem_cons.mp hsecond with hnew' | hold'
      · exact (List.cons.inj (hnew.trans hnew'.symm)).2
      · rw [(List.cons.inj hnew).1] at hold'
        exact absurd hold' (hfresh second)
    · rcases List.mem_cons.mp hsecond with hnew' | hold'
      · rw [(List.cons.inj hnew').1] at hold
        exact absurd hold (hfresh first)
      · exact hforest.once other first second hold hold'

namespace Charted

theorem initial (calls : Nat → List CallSite) (count : Nat) :
    Charted calls count (List.range count) [] [] [] where
  forest := ⟨by simp, by simp⟩
  current := Or.inl rfl
  entered := by simp
  complete := fun operation hbound => Or.inl (List.mem_range.mpr hbound)
  reported := by simp
  unreported := by simp [closedBy]

theorem enterRoot (hcharted : Charted calls count (root :: unvisited) [] cycles branches)
    (hwalking : Walking calls count (root :: unvisited) [] order) :
    Charted calls count unvisited [⟨root, calls root⟩] cycles ([root] :: branches) := by
  have hfresh : ∀ outer, root :: outer ∉ branches := fun outer hmem =>
    hcharted.entered root outer hmem List.mem_cons_self
  have hroot : root ∉ unvisited := by
    have hnodup := hwalking.nodup
    simp only [List.map_nil, List.append_nil, List.nodup_cons] at hnodup
    exact hnodup.1
  refine ⟨hcharted.forest.cons (Or.inl rfl) hfresh, Or.inr List.mem_cons_self, ?entered, ?complete,
    ?reported, ?unreported⟩
  case entered =>
    intro operation outer hmem
    rcases List.mem_cons.mp hmem with heq | hmem
    · rwa [(List.cons.inj heq).1]
    · exact fun hunvisited =>
        hcharted.entered operation outer hmem (List.mem_cons_of_mem root hunvisited)
  case complete =>
    intro operation hbound
    rcases hcharted.complete operation hbound with hunvisited | ⟨outer, hmem⟩
    · rcases List.mem_cons.mp hunvisited with rfl | hunvisited
      · exact Or.inr ⟨[], List.mem_cons_self⟩
      · exact Or.inl hunvisited
    · exact Or.inr ⟨outer, List.mem_cons_of_mem _ hmem⟩
  case reported =>
    intro operation outer hmem
    rcases List.mem_cons.mp hmem with heq | hmem
    · obtain ⟨rfl, rfl⟩ := List.cons.inj heq
      rw [hcharted.unreported operation List.mem_cons_self, pendingAt_cons_self, List.nil_append]
    · have hne : root ≠ operation := by
        rintro rfl
        exact hfresh outer hmem
      rw [pendingAt_cons_of_ne hne]
      exact hcharted.reported operation outer hmem
  case unreported =>
    exact fun operation hunvisited =>
      hcharted.unreported operation (List.mem_cons_of_mem root hunvisited)

theorem leave (hcharted : Charted calls count unvisited (⟨operation, []⟩ :: outer) cycles branches)
    (hwalking : Walking calls count unvisited (⟨operation, []⟩ :: outer) order) :
    Charted calls count unvisited outer cycles branches where
  forest := hcharted.forest
  current := by
    rcases hcharted.current with hnil | hmem
    · cases hnil
    · exact hcharted.forest.outer _ _ hmem
  entered := hcharted.entered
  complete := hcharted.complete
  reported := by
    intro other around hmem
    have hreported := hcharted.reported other around hmem
    by_cases heq : operation = other
    · subst heq
      rw [pendingAt_cons_self] at hreported
      rwa [pendingAt_eq_nil hwalking.not_mem_outer]
    · rwa [pendingAt_cons_of_ne heq] at hreported
  unreported := hcharted.unreported

/-- The stack of the innermost frame. -/
theorem innermost (hcharted : Charted calls count unvisited (⟨operation, pending⟩ :: outer) cycles
    branches) : operation :: outer.map (·.operation) ∈ branches := by
  rcases hcharted.current with hnil | hmem
  · cases hnil
  · exact hmem

/-- The next call of the innermost frame is followed: what it reports takes the place of the call
among those that are pending. -/
theorem follow {more : List CallCycle}
    (hcharted : Charted calls count unvisited (⟨operation, site :: pending⟩ :: outer) cycles
      branches)
    (hinnermost : closedBy more.reverse operation ++
      reportsOf (operation :: outer.map (·.operation)) pending =
        closedBy cycles.reverse operation ++
          reportsOf (operation :: outer.map (·.operation)) (site :: pending))
    (hothers : ∀ other, operation ≠ other →
      closedBy more.reverse other = closedBy cycles.reverse other) :
    Charted calls count unvisited (⟨operation, pending⟩ :: outer) more branches where
  forest := hcharted.forest
  current := Or.inr hcharted.innermost
  entered := hcharted.entered
  complete := hcharted.complete
  reported := by
    intro other around hmem
    have hreported := hcharted.reported other around hmem
    by_cases heq : operation = other
    · subst heq
      obtain rfl := hcharted.forest.once operation _ _ hcharted.innermost hmem
      rw [pendingAt_cons_self] at hreported ⊢
      rw [hinnermost, hreported]
    · rw [pendingAt_cons_of_ne heq] at hreported ⊢
      rwa [hothers other heq]
  unreported := by
    intro other hunvisited
    have hne : operation ≠ other := by
      rintro rfl
      exact hcharted.entered _ _ hcharted.innermost hunvisited
    rw [hothers other hne]
    exact hcharted.unreported other hunvisited

theorem skip
    (hcharted : Charted calls count unvisited (⟨operation, site :: pending⟩ :: outer) cycles
      branches)
    (hinactive : site.callee ∉ operation :: outer.map (·.operation)) :
    Charted calls count unvisited (⟨operation, pending⟩ :: outer) cycles branches := by
  apply hcharted.follow
  · rw [reportsOf_cons_of_not_mem hinactive]
  · exact fun _ _ => rfl

theorem report
    (hcharted : Charted calls count unvisited (⟨operation, site :: pending⟩ :: outer) cycles
      branches)
    (hactive : site.callee ∈ operation :: outer.map (·.operation)) :
    Charted calls count unvisited (⟨operation, pending⟩ :: outer)
      (⟨pathFrom site.callee (⟨operation, pending⟩ :: outer), site.line⟩ :: cycles) branches := by
  have hlast : (pathFrom site.callee (⟨operation, pending⟩ :: outer)).getLast? = some operation :=
    pathFrom_getLast? hactive
  apply hcharted.follow
  · rw [closedBy_reverse_cons, if_pos hlast, reportsOf_cons_of_mem hactive, List.append_assoc]
    rfl
  · intro other hne
    rw [closedBy_reverse_cons, if_neg (by simpa [hlast] using hne), List.append_nil]

theorem enter
    (hcharted : Charted calls count unvisited (⟨operation, site :: pending⟩ :: outer) cycles
      branches)
    (hwalking : Walking calls count unvisited (⟨operation, site :: pending⟩ :: outer) order)
    (hunvisited : site.callee ∈ unvisited) :
    Charted calls count (unvisited.erase site.callee)
      (⟨site.callee, calls site.callee⟩ :: ⟨operation, pending⟩ :: outer) cycles
      ((site.callee :: operation :: outer.map (·.operation)) :: branches) := by
  have hinactive : site.callee ∉ operation :: outer.map (·.operation) :=
    hwalking.not_mem_frames hunvisited
  have hskipped := hcharted.skip hinactive
  have hfresh : ∀ outer, site.callee :: outer ∉ branches := fun outer hmem =>
    hskipped.entered _ outer hmem hunvisited
  refine ⟨hskipped.forest.cons (Or.inr hskipped.innermost) hfresh, Or.inr List.mem_cons_self,
    ?entered, ?complete, ?reported, ?unreported⟩
  case entered =>
    intro other around hmem hother
    rcases List.mem_cons.mp hmem with heq | hmem
    · have hunique := (List.nodup_append.mp hwalking.nodup).1
      rw [(List.cons.inj heq).1] at hother
      exact (List.Nodup.mem_erase_iff hunique).mp hother |>.1 rfl
    · exact hskipped.entered other around hmem (List.mem_of_mem_erase hother)
  case complete =>
    intro other hbound
    rcases hskipped.complete other hbound with hother | ⟨around, hmem⟩
    · by_cases heq : other = site.callee
      · subst heq
        exact Or.inr ⟨_, List.mem_cons_self⟩
      · exact Or.inl ((List.mem_erase_of_ne heq).mpr hother)
    · exact Or.inr ⟨around, List.mem_cons_of_mem _ hmem⟩
  case reported =>
    intro other around hmem
    rcases List.mem_cons.mp hmem with heq | hmem
    · obtain ⟨rfl, rfl⟩ := List.cons.inj heq
      rw [hskipped.unreported _ hunvisited, pendingAt_cons_self, List.nil_append]
    · have hne : site.callee ≠ other := by
        rintro rfl
        exact hfresh around hmem
      rw [pendingAt_cons_of_ne hne]
      exact hskipped.reported other around hmem
  case unreported =>
    exact fun other hother => hskipped.unreported other (List.mem_of_mem_erase hother)

end Charted

/-! ### Runs of the walk -/

/-- In the end each operation was entered on one stack, and the cycles that its calls close are
those of its calls that lead back into this stack, in the order of the calls. -/
theorem walk_forest (hwalking : Walking calls count unvisited frames order)
    (hcharted : ∃ branches, Charted calls count unvisited frames cycles branches) :
    ∃ branches, IsForest branches ∧ (∀ n < count, ∃ outer, n :: outer ∈ branches) ∧
      ∀ n outer, n :: outer ∈ branches →
        closedBy (walk calls unvisited frames order cycles).cycles n =
          reportsOf (n :: outer) (calls n) := by
  induction unvisited, frames, order, cycles using walk.induct calls with
  | case1 order cycles =>
      obtain ⟨branches, hcharted⟩ := hcharted
      rw [walk]
      refine ⟨branches, hcharted.forest, fun n hn => ?_, fun n outer hmem => ?_⟩
      · simpa using hcharted.complete n hn
      · have hreported := hcharted.reported n outer hmem
        rwa [pendingAt_eq_nil (by simp), reportsOf_nil, List.append_nil] at hreported
  | case2 order cycles root others ih =>
      obtain ⟨branches, hcharted⟩ := hcharted
      rw [walk]
      exact ih hwalking.enterRoot ⟨_, hcharted.enterRoot hwalking⟩
  | case3 unvisited order cycles operation outer ih =>
      obtain ⟨branches, hcharted⟩ := hcharted
      rw [walk]
      exact ih hwalking.leave ⟨_, hcharted.leave hwalking⟩
  | case4 unvisited order cycles operation site pending outer active hunvisited ih =>
      obtain ⟨branches, hcharted⟩ := hcharted
      rw [walk, if_pos hunvisited]
      exact ih (hwalking.enter hunvisited) ⟨_, hcharted.enter hwalking hunvisited⟩
  | case5 unvisited order cycles operation site pending outer active hunvisited hactive ih =>
      obtain ⟨branches, hcharted⟩ := hcharted
      rw [walk, if_neg hunvisited, if_pos hactive]
      exact ih hwalking.skip ⟨_, hcharted.report hactive⟩
  | case6 unvisited order cycles operation site pending outer active hunvisited hactive ih =>
      obtain ⟨branches, hcharted⟩ := hcharted
      rw [walk, if_neg hunvisited, if_neg hactive]
      exact ih hwalking.skip ⟨_, hcharted.skip hactive⟩

theorem callOrder_forest (calls : Nat → List CallSite) (count : Nat) :
    ∃ branches, IsForest branches ∧ (∀ n < count, ∃ outer, n :: outer ∈ branches) ∧
      ∀ n outer, n :: outer ∈ branches →
        closedBy (callOrder count calls).cycles n = reportsOf (n :: outer) (calls n) :=
  walk_forest (Walking.initial calls count) ⟨[], Charted.initial calls count⟩

/-! ### Cycles on the branches of a forest -/

/-- What is around an operation on a branch is the branch of that operation. -/
theorem IsForest.exists_suffix (hforest : IsForest branches) (hstack : stack ∈ branches)
    (hmem : operation ∈ stack) :
    ∃ outer, operation :: outer ∈ branches ∧ operation :: outer <:+ stack := by
  induction stack with
  | nil => cases hmem
  | cons first outer ih =>
      rcases List.mem_cons.mp hmem with rfl | hmem
      · exact ⟨outer, hstack, List.suffix_rfl⟩
      · rcases hforest.outer first outer hstack with rfl | houter
        · cases hmem
        · obtain ⟨around, haround, hsuffix⟩ := ih houter hmem
          exact ⟨around, haround, hsuffix.trans (List.suffix_cons first outer)⟩

/-- Two operations that are on each other's branch are the same. -/
theorem IsForest.eq_of_mem {outer outer' : List Nat} (hforest : IsForest branches)
    (hstack : operation :: outer ∈ branches) (hother : other :: outer' ∈ branches)
    (hmem : other ∈ operation :: outer) (hmem' : operation ∈ other :: outer') :
    operation = other := by
  obtain ⟨around, haround, hsuffix⟩ := hforest.exists_suffix hstack hmem
  obtain ⟨around', haround', hsuffix'⟩ := hforest.exists_suffix hother hmem'
  obtain rfl := hforest.once other _ _ haround hother
  obtain rfl := hforest.once operation _ _ haround' hstack
  have hlength := Nat.le_antisymm hsuffix.length_le hsuffix'.length_le
  exact (List.cons.inj (hsuffix.eq_of_length hlength)).1.symm

theorem mem_of_mem_cyclePath {callee : Nat} (hcallee : callee ∈ stack)
    (hmem : operation ∈ cyclePath callee stack) : operation ∈ stack := by
  rcases List.mem_cons.mp hmem with rfl | hmem
  · exact hcallee
  · exact (List.takeWhile_prefix _).subset (List.mem_reverse.mp hmem)

/-- A cycle on a branch is known from its operations. -/
theorem eq_of_mem_cyclePath {callee callee' : Nat} (hcallee : callee ∈ cyclePath callee' stack)
    (hcallee' : callee' ∈ cyclePath callee stack) (hmem : callee ∈ stack) : callee = callee' := by
  induction stack with
  | nil => cases hmem
  | cons first outer ih =>
      by_cases hfirst : first = callee
      · simpa [cyclePath, hfirst, eq_comm] using hcallee'
      · by_cases hfirst' : first = callee'
        · simpa [cyclePath, hfirst'] using hcallee
        · have hne : callee ≠ first := Ne.symm hfirst
          have hne' : callee' ≠ first := Ne.symm hfirst'
          simp only [cyclePath, ne_eq, hfirst, hfirst', not_false_eq_true, decide_true,
            List.takeWhile_cons_of_pos, List.reverse_cons, List.mem_cons, List.mem_append, hne,
            hne'] at hcallee hcallee'
          apply ih
          · simpa [cyclePath] using hcallee
          · simpa [cyclePath] using hcallee'
          · simpa [hne] using hmem

/-! ### Reported cycles -/

/-- A reported cycle lies on the stack of the operation that closes it. -/
theorem exists_stack_of_reported (hcomplete : ∀ n < count, ∃ outer, n :: outer ∈ branches)
    (hreports : ∀ n outer, n :: outer ∈ branches →
      closedBy cycles n = reportsOf (n :: outer) (calls n))
    {last : Nat} (hbound : last < count) (hcycle : cycle ∈ cycles)
    (hlast : cycle.path.getLast? = some last) :
    ∃ outer callee, last :: outer ∈ branches ∧ callee ∈ last :: outer ∧
      cycle.path = cyclePath callee (last :: outer) := by
  obtain ⟨outer, hstack⟩ := hcomplete last hbound
  have hmem : cycle ∈ closedBy cycles last := by simp [closedBy, hcycle, hlast]
  rw [hreports last outer hstack] at hmem
  obtain ⟨site, hsite, rfl⟩ := List.mem_map.mp hmem
  have hactive := (List.mem_filter.mp hsite).2
  exact ⟨outer, site.callee, hstack, of_decide_eq_true hactive, rfl⟩

/-- The operation that closes a reported cycle is one of those that are listed. -/
theorem CallCycle.Closes.exists_last (houtside : ∀ n, count ≤ n → calls n = [])
    (hcycle : cycle.Closes calls) : ∃ last < count, cycle.path.getLast? = some last := by
  obtain ⟨-, first, last, -, hlast, hsite⟩ := hcycle
  refine ⟨last, ?_, hlast⟩
  by_contra hbound
  rw [houtside last (Nat.le_of_not_lt hbound)] at hsite
  cases hsite

/-- Two reported cycles through the same operations are the same, from the same start. -/
theorem callOrder_path_eq (houtside : ∀ n, count ≤ n → calls n = []) {cycle' : CallCycle}
    (hcycle : cycle ∈ (callOrder count calls).cycles)
    (hcycle' : cycle' ∈ (callOrder count calls).cycles)
    (hsame : ∀ n, n ∈ cycle.path ↔ n ∈ cycle'.path) : cycle.path = cycle'.path := by
  obtain ⟨branches, hforest, hcomplete, hreports⟩ := callOrder_forest calls count
  obtain ⟨last, hbound, hlast⟩ :=
    (callOrder_cycles_close calls count cycle hcycle).exists_last houtside
  obtain ⟨last', hbound', hlast'⟩ :=
    (callOrder_cycles_close calls count cycle' hcycle').exists_last houtside
  obtain ⟨outer, callee, hstack, hcallee, hpath⟩ :=
    exists_stack_of_reported hcomplete hreports hbound hcycle hlast
  obtain ⟨outer', callee', hstack', hcallee', hpath'⟩ :=
    exists_stack_of_reported hcomplete hreports hbound' hcycle' hlast'
  -- each closes on the stack of the other, so both close on the same stack
  have hmem : last ∈ cycle'.path := (hsame last).mp (List.mem_of_getLast? hlast)
  have hmem' : last' ∈ cycle.path := (hsame last').mpr (List.mem_of_getLast? hlast')
  obtain rfl : last = last' := by
    apply hforest.eq_of_mem hstack hstack'
    · exact mem_of_mem_cyclePath hcallee (hpath ▸ hmem')
    · exact mem_of_mem_cyclePath hcallee' (hpath' ▸ hmem)
  obtain rfl := hforest.once last outer outer' hstack hstack'
  have hstart : callee ∈ cyclePath callee' (last :: outer) := by
    rw [← hpath', ← hsame, hpath]
    exact List.mem_cons_self
  have hstart' : callee' ∈ cyclePath callee (last :: outer) := by
    rw [← hpath, hsame, hpath']
    exact List.mem_cons_self
  rw [hpath, hpath', eq_of_mem_cyclePath hstart hstart' hcallee]

/-- A cycle is reported once for each call of its last operation to its first one, in the order of
these calls. -/
theorem callOrder_reports (houtside : ∀ n, count ≤ n → calls n = [])
    (hcycle : cycle ∈ (callOrder count calls).cycles) :
    ∃ first last, cycle.path.head? = some first ∧ cycle.path.getLast? = some last ∧
      (callOrder count calls).cycles.filter (·.path = cycle.path) =
        ((calls last).filter (·.callee = first)).map fun site => ⟨cycle.path, site.line⟩ := by
  obtain ⟨branches, hforest, hcomplete, hreports⟩ := callOrder_forest calls count
  obtain ⟨last, hbound, hlast⟩ :=
    (callOrder_cycles_close calls count cycle hcycle).exists_last houtside
  obtain ⟨outer, first, hstack, hfirst, hpath⟩ :=
    exists_stack_of_reported hcomplete hreports hbound hcycle hlast
  refine ⟨first, last, by rw [hpath]; rfl, hlast, ?_⟩
  calc (callOrder count calls).cycles.filter (·.path = cycle.path)
      = (closedBy (callOrder count calls).cycles last).filter (·.path = cycle.path) := by
        rw [closedBy, List.filter_filter]
        apply List.filter_congr
        intro other _
        by_cases hother : other.path = cycle.path <;> simp [hother, hlast]
    _ = ((calls last).filter (·.callee = first)).map fun site => ⟨cycle.path, site.line⟩ := by
        rw [hreports last outer hstack, reportsOf, List.filter_map, List.filter_filter]
        have hsites : ∀ site ∈ calls last,
            (decide ((cyclePath site.callee (last :: outer)) = cycle.path) &&
              decide (site.callee ∈ last :: outer)) = decide (site.callee = first) := by
          intro site _
          by_cases hsite : site.callee = first
          · simp [hsite, hpath, hfirst]
          · simp [hsite, hpath, cyclePath]
        refine (congrArg _ (List.filter_congr hsites)).trans (List.map_congr_left ?_)
        intro site hsite
        rw [of_decide_eq_true (List.mem_filter.mp hsite).2, hpath]

end GateBench.Program
