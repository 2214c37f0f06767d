import GateBench.Program.CallOrder
import Mathlib.Data.List.Chain
import Mathlib.Data.List.Perm.Basic
import Mathlib.Logic.Relation

/-!
The depth-first walk over a call graph.  It lists every operation once; a call either leads to an
operation listed earlier, or is reported with the cycle that it closes.  So there is a report
exactly when the calls form a cycle.
-/

namespace GateBench.Program

/-- One operation calls another. -/
def CallsTo (calls : Nat → List CallSite) (caller callee : Nat) : Prop :=
  ∃ site ∈ calls caller, site.callee = callee

/-- A reported cycle is one: its operations each call the next, and its line is that of a call from
the last of them to the first. -/
def CallCycle.Closes (calls : Nat → List CallSite) (cycle : CallCycle) : Prop :=
  cycle.path.IsChain (CallsTo calls) ∧
    ∃ first last : Nat, cycle.path.head? = some first ∧ cycle.path.getLast? = some last ∧
      ⟨first, cycle.line⟩ ∈ calls last

/-- A cycle was reported that a call from `caller` to `callee` closes. -/
def Reported (cycles : List CallCycle) (caller callee : Nat) : Prop :=
  ∃ cycle ∈ cycles, cycle.path.head? = some callee ∧ cycle.path.getLast? = some caller

/-- What a walk keeps.  Every operation is unvisited, under way or listed, and in one of these
places only; each frame was entered through a call of the frame around it. -/
structure Walking (calls : Nat → List CallSite) (count : Nat) (unvisited : List Nat)
    (frames : List Frame) (order : List Nat) : Prop where
  places : (unvisited ++ frames.map (·.operation) ++ order).Perm (List.range count)
  nested : (frames.map (·.operation)).IsChain fun inner outer => CallsTo calls outer inner
  pending : ∀ frame ∈ frames, frame.pending ⊆ calls frame.operation

/-- Every call of a listed operation leads to one listed earlier, or was reported.  The list has
the latest operation first. -/
def Listed (calls : Nat → List CallSite) (cycles : List CallCycle) : List Nat → Prop
  | [] => True
  | operation :: earlier =>
      (∀ site ∈ calls operation,
        site.callee ∈ earlier ∨ Reported cycles operation site.callee) ∧
      Listed calls cycles earlier

/-- Every call of a frame is pending, leads to a listed operation or into the frame within it, or
was reported. -/
def Followed (calls : Nat → List CallSite) (cycles : List CallCycle) (order : List Nat) :
    Option Nat → List Frame → Prop
  | _, [] => True
  | inner, frame :: outer =>
      (∀ site ∈ calls frame.operation,
        site ∈ frame.pending ∨ site.callee ∈ order ∨ inner = some site.callee ∨
          Reported cycles frame.operation site.callee) ∧
      Followed calls cycles order (some frame.operation) outer

variable {calls : Nat → List CallSite} {count : Nat} {unvisited order : List Nat}
  {frames outer : List Frame} {operation root : Nat} {pending : List CallSite}
  {site : CallSite} {cycle : CallCycle} {cycles : List CallCycle} {inner : Option Nat}

namespace Walking

theorem initial (calls : Nat → List CallSite) (count : Nat) :
    Walking calls count (List.range count) [] [] :=
  ⟨by simp, by simp, by simp⟩

theorem enterRoot (hwalking : Walking calls count (root :: unvisited) [] order) :
    Walking calls count unvisited [⟨root, calls root⟩] order := by
  refine ⟨?_, by simp, by simp⟩
  refine List.Perm.trans ?_ hwalking.places
  simp

theorem leave (hwalking : Walking calls count unvisited (⟨operation, []⟩ :: outer) order) :
    Walking calls count unvisited outer (operation :: order) := by
  refine ⟨?_, ?_, fun frame hframe => hwalking.pending frame (List.mem_cons_of_mem _ hframe)⟩
  · refine List.Perm.trans ?_ hwalking.places
    simp only [List.map_cons, List.append_assoc, List.cons_append]
    exact (List.perm_middle).append_left unvisited
  · exact hwalking.nested.tail

/-- The pending calls of the innermost frame may be given up. -/
theorem skip (hwalking : Walking calls count unvisited (⟨operation, site :: pending⟩ :: outer)
    order) : Walking calls count unvisited (⟨operation, pending⟩ :: outer) order := by
  refine ⟨hwalking.places, hwalking.nested, ?_⟩
  intro frame hframe
  rcases List.mem_cons.mp hframe with rfl | hframe
  · have hpending := hwalking.pending ⟨operation, site :: pending⟩ List.mem_cons_self
    exact fun other hother => hpending (List.mem_cons_of_mem site hother)
  · exact hwalking.pending frame (List.mem_cons_of_mem _ hframe)

theorem site_mem (hwalking : Walking calls count unvisited
    (⟨operation, site :: pending⟩ :: outer) order) : site ∈ calls operation :=
  hwalking.pending ⟨operation, site :: pending⟩ List.mem_cons_self List.mem_cons_self

theorem enter (hwalking : Walking calls count unvisited (⟨operation, site :: pending⟩ :: outer)
    order) (hunvisited : site.callee ∈ unvisited) :
    Walking calls count (unvisited.erase site.callee)
      (⟨site.callee, calls site.callee⟩ :: ⟨operation, pending⟩ :: outer) order := by
  refine ⟨?_, ?_, ?_⟩
  · refine List.Perm.trans ?_ hwalking.places
    have hmove := (List.perm_cons_erase hunvisited).symm
    simp only [List.map_cons, List.append_assoc, List.cons_append]
    exact List.perm_middle.trans (hmove.append_right _)
  · exact List.IsChain.cons_cons ⟨site, hwalking.site_mem, rfl⟩ hwalking.skip.nested
  · intro frame hframe
    rcases List.mem_cons.mp hframe with rfl | hframe
    · exact fun other hother => hother
    · exact hwalking.skip.pending frame hframe

end Walking

/-! ### Reported cycles -/

theorem takeWhile_ne_append {callee : Nat} {active : List Nat} (hactive : callee ∈ active) :
    ∃ rest, active = active.takeWhile (· ≠ callee) ++ callee :: rest := by
  induction active with
  | nil => simp at hactive
  | cons first others ih =>
      by_cases heq : first = callee
      · exact ⟨others, by simp [heq]⟩
      · obtain ⟨rest, hrest⟩ := ih ((List.mem_cons.mp hactive).resolve_left (Ne.symm heq))
        exact ⟨rest, by simpa [heq] using hrest⟩

/-- The path of a reported cycle is a front of the frames, read from the outside. -/
theorem pathFrom_eq_reverse (callee : Nat) (frames : List Frame) :
    pathFrom callee frames =
      ((frames.map (·.operation)).takeWhile (· ≠ callee) ++ [callee]).reverse := by
  simp [pathFrom]

theorem pathFrom_head? (callee : Nat) (frames : List Frame) :
    (pathFrom callee frames).head? = some callee := by
  simp [pathFrom]

theorem pathFrom_getLast? {callee : Nat} {frame : Frame}
    (hactive : callee ∈ (frame :: outer).map (·.operation)) :
    (pathFrom callee (frame :: outer)).getLast? = some frame.operation := by
  obtain ⟨rest, hrest⟩ := takeWhile_ne_append hactive
  rw [pathFrom_eq_reverse, List.getLast?_reverse]
  have hhead := congrArg List.head? hrest
  simp only [List.map_cons, List.head?_cons, List.head?_append] at hhead
  simpa [List.head?_append] using hhead.symm

theorem Walking.closes_pathFrom
    (hwalking : Walking calls count unvisited (⟨operation, site :: pending⟩ :: outer) order)
    (hactive : site.callee ∈ ((⟨operation, pending⟩ :: outer : List Frame).map (·.operation))) :
    (CallCycle.mk (pathFrom site.callee (⟨operation, pending⟩ :: outer)) site.line).Closes
      calls := by
  refine ⟨?_, site.callee, operation, pathFrom_head? _ _, pathFrom_getLast? hactive,
    hwalking.site_mem⟩
  obtain ⟨rest, hrest⟩ := takeWhile_ne_append hactive
  have hnested := hwalking.skip.nested
  rw [hrest, List.isChain_split] at hnested
  simp only [pathFrom_eq_reverse, List.isChain_reverse]
  exact hnested.1

theorem CallsTo.of_closes (hcycle : cycle.Closes calls) :
    ∃ first, Relation.TransGen (CallsTo calls) first first := by
  obtain ⟨hchain, first, last, hfirst, hlast, hsite⟩ := hcycle
  obtain ⟨others, hpath⟩ : ∃ others, cycle.path = first :: others := by
    cases hpath : cycle.path with
    | nil => simp [hpath] at hfirst
    | cons head others => exact ⟨others, by simpa [hpath] using hfirst⟩
  rw [hpath] at hchain hlast
  have hlast' : (first :: others).getLast (List.cons_ne_nil _ _) = last := by
    simpa [List.getLast?_eq_some_getLast (List.cons_ne_nil first others)] using hlast
  have hwalk : Relation.ReflTransGen (CallsTo calls) first last :=
    List.relationReflTransGen_of_exists_isChain_cons others hchain hlast'
  exact ⟨first, Relation.TransGen.tail' hwalk ⟨⟨first, cycle.line⟩, hsite, rfl⟩⟩

/-! ### Runs of the walk -/

theorem walk_order_perm (hwalking : Walking calls count unvisited frames order) :
    (walk calls unvisited frames order cycles).order.Perm (List.range count) := by
  induction unvisited, frames, order, cycles using walk.induct calls with
  | case1 order cycles =>
      have hplaces := hwalking.places
      simp only [List.map_nil, List.append_nil, List.nil_append] at hplaces
      simpa [walk] using (List.reverse_perm order).trans hplaces
  | case2 order cycles root others ih =>
      simpa [walk] using ih hwalking.enterRoot
  | case3 unvisited order cycles operation outer ih =>
      simpa [walk] using ih hwalking.leave
  | case4 unvisited order cycles operation site pending outer active hunvisited ih =>
      simpa [walk, hunvisited] using ih (hwalking.enter hunvisited)
  | case5 unvisited order cycles operation site pending outer active hunvisited hactive ih =>
      rw [walk, if_neg hunvisited, if_pos hactive]
      exact ih hwalking.skip
  | case6 unvisited order cycles operation site pending outer active hunvisited hactive ih =>
      rw [walk, if_neg hunvisited, if_neg hactive]
      exact ih hwalking.skip

theorem walk_cycles_close (hwalking : Walking calls count unvisited frames order)
    (hcycles : ∀ cycle ∈ cycles, cycle.Closes calls) :
    ∀ cycle ∈ (walk calls unvisited frames order cycles).cycles, cycle.Closes calls := by
  induction unvisited, frames, order, cycles using walk.induct calls with
  | case1 order cycles => simpa [walk] using hcycles
  | case2 order cycles root others ih =>
      simpa [walk] using ih hwalking.enterRoot hcycles
  | case3 unvisited order cycles operation outer ih =>
      simpa [walk] using ih hwalking.leave hcycles
  | case4 unvisited order cycles operation site pending outer active hunvisited ih =>
      simpa [walk, hunvisited] using ih (hwalking.enter hunvisited) hcycles
  | case5 unvisited order cycles operation site pending outer active hunvisited hactive ih =>
      rw [walk, if_neg hunvisited, if_pos hactive]
      apply ih hwalking.skip
      intro cycle hcycle
      rcases List.mem_cons.mp hcycle with rfl | hcycle
      · exact hwalking.closes_pathFrom hactive
      · exact hcycles cycle hcycle
  | case6 unvisited order cycles operation site pending outer active hunvisited hactive ih =>
      rw [walk, if_neg hunvisited, if_neg hactive]
      exact ih hwalking.skip hcycles

/-! ### Every call is followed or reported -/

theorem Reported.mono {more : List CallCycle} {caller callee : Nat}
    (hreported : Reported cycles caller callee) (hmore : cycles ⊆ more) :
    Reported more caller callee := by
  obtain ⟨cycle, hcycle, hends⟩ := hreported
  exact ⟨cycle, hmore hcycle, hends⟩

theorem Listed.mono {more : List CallCycle} (hlisted : Listed calls cycles order)
    (hmore : cycles ⊆ more) : Listed calls more order := by
  induction order with
  | nil => trivial
  | cons operation earlier ih =>
      exact ⟨fun site hsite => (hlisted.1 site hsite).imp_right (·.mono hmore), ih hlisted.2⟩

theorem Followed.mono {more : List CallCycle} (hfollowed : Followed calls cycles order inner frames)
    (hmore : cycles ⊆ more) : Followed calls more order inner frames := by
  induction frames generalizing inner with
  | nil => trivial
  | cons frame outer ih =>
      refine ⟨fun site hsite => ?_, ih hfollowed.2⟩
      rcases hfollowed.1 site hsite with hpending | hlisted | hinner | hreported
      · exact Or.inl hpending
      · exact Or.inr (Or.inl hlisted)
      · exact Or.inr (Or.inr (Or.inl hinner))
      · exact Or.inr (Or.inr (Or.inr (hreported.mono hmore)))

/-- An operation that has just been listed is no longer the frame within the next one. -/
theorem Followed.list (hfollowed : Followed calls cycles order (some operation) frames) :
    Followed calls cycles (operation :: order) none frames := by
  have hlist : ∀ {inner : Option Nat} {frames : List Frame},
      Followed calls cycles order inner frames →
      Followed calls cycles (operation :: order) inner frames := by
    intro inner frames
    induction frames generalizing inner with
    | nil => exact id
    | cons frame outer ih =>
        exact fun hold => ⟨fun site hsite => by
          rcases hold.1 site hsite with hpending | hlisted | hinner | hreported
          · exact Or.inl hpending
          · exact Or.inr (Or.inl (List.mem_cons_of_mem _ hlisted))
          · exact Or.inr (Or.inr (Or.inl hinner))
          · exact Or.inr (Or.inr (Or.inr hreported)), ih hold.2⟩
  cases frames with
  | nil => trivial
  | cons frame outer =>
      refine ⟨fun site hsite => ?_, hlist hfollowed.2⟩
      rcases hfollowed.1 site hsite with hpending | hlisted | hinner | hreported
      · exact Or.inl hpending
      · exact Or.inr (Or.inl (List.mem_cons_of_mem _ hlisted))
      · exact Or.inr (Or.inl (by simp [Option.some.inj hinner]))
      · exact Or.inr (Or.inr (Or.inr hreported))

/-- A call of the innermost frame may be given up once it leads to a listed operation, into the
next frame, or was reported. -/
theorem Followed.skip {next : Option Nat}
    (hfollowed : Followed calls cycles order none (⟨operation, site :: pending⟩ :: outer))
    (hsite : site.callee ∈ order ∨ next = some site.callee ∨
      Reported cycles operation site.callee) :
    Followed calls cycles order next (⟨operation, pending⟩ :: outer) := by
  refine ⟨fun other hother => ?_, hfollowed.2⟩
  rcases hfollowed.1 other hother with hpending | hlisted | hinner | hreported
  · rcases List.mem_cons.mp hpending with rfl | hpending
    · exact Or.inr hsite
    · exact Or.inl hpending
  · exact Or.inr (Or.inl hlisted)
  · simp at hinner
  · exact Or.inr (Or.inr (Or.inr hreported))

theorem walk_listed (hclosed : ∀ n < count, ∀ site ∈ calls n, site.callee < count)
    (hwalking : Walking calls count unvisited frames order)
    (hlisted : Listed calls cycles order)
    (hfollowed : Followed calls cycles order none frames) :
    Listed calls (walk calls unvisited frames order cycles).cycles
      (walk calls unvisited frames order cycles).order.reverse := by
  induction unvisited, frames, order, cycles using walk.induct calls with
  | case1 order cycles =>
      simpa [walk] using hlisted.mono fun cycle hcycle => List.mem_reverse.mpr hcycle
  | case2 order cycles root others ih =>
      rw [walk]
      exact ih hwalking.enterRoot hlisted ⟨fun site hsite => Or.inl hsite, trivial⟩
  | case3 unvisited order cycles operation outer ih =>
      rw [walk]
      refine ih hwalking.leave ⟨fun site hsite => ?_, hlisted⟩ hfollowed.2.list
      simpa using hfollowed.1 site hsite
  | case4 unvisited order cycles operation site pending outer active hunvisited ih =>
      rw [walk, if_pos hunvisited]
      exact ih (hwalking.enter hunvisited) hlisted
        ⟨fun other hother => Or.inl hother, hfollowed.skip (Or.inr (Or.inl rfl))⟩
  | case5 unvisited order cycles operation site pending outer active hunvisited hactive ih =>
      rw [walk, if_neg hunvisited, if_pos hactive]
      have hmore := List.subset_cons_self
        (CallCycle.mk (pathFrom site.callee active) site.line) cycles
      refine ih hwalking.skip (hlisted.mono hmore)
        ((hfollowed.mono hmore).skip (Or.inr (Or.inr ?_)))
      exact ⟨_, List.mem_cons_self, pathFrom_head? _ _, pathFrom_getLast? hactive⟩
  | case6 unvisited order cycles operation site pending outer active hunvisited hactive ih =>
      rw [walk, if_neg hunvisited, if_neg hactive]
      refine ih hwalking.skip hlisted (hfollowed.skip (Or.inl ?_))
      have hoperation : operation < count := by
        have hmem := hwalking.places.mem_iff (a := operation)
        simpa using hmem.mp (by simp)
      have hcallee := hclosed operation hoperation site hwalking.site_mem
      have hplace := hwalking.skip.places.mem_iff.mpr (List.mem_range.mpr hcallee)
      simp only [List.append_assoc, List.mem_append] at hplace
      exact (hplace.resolve_left hunvisited).resolve_left hactive

/-! ### The order of all operations -/

theorem callOrder_perm (calls : Nat → List CallSite) (count : Nat) :
    (callOrder count calls).order.Perm (List.range count) :=
  walk_order_perm (Walking.initial calls count)

theorem callOrder_cycles_close (calls : Nat → List CallSite) (count : Nat) :
    ∀ cycle ∈ (callOrder count calls).cycles, cycle.Closes calls :=
  walk_cycles_close (Walking.initial calls count) (by simp)

theorem callOrder_listed (hclosed : ∀ n < count, ∀ site ∈ calls n, site.callee < count) :
    Listed calls (callOrder count calls).cycles (callOrder count calls).order.reverse :=
  walk_listed hclosed (Walking.initial calls count) trivial trivial

theorem Listed.callee_mem {order : List Nat} (hlisted : Listed calls [] order)
    {caller callee : Nat} (hcaller : caller ∈ order) (hcalls : CallsTo calls caller callee) :
    callee ∈ order := by
  induction order with
  | nil => simp at hcaller
  | cons operation earlier ih =>
      rcases List.mem_cons.mp hcaller with rfl | hcaller
      · obtain ⟨site, hsite, rfl⟩ := hcalls
        have hcallee := hlisted.1 site hsite
        simp only [Reported, List.not_mem_nil, false_and, exists_false, or_false] at hcallee
        exact List.mem_cons_of_mem _ hcallee
      · exact List.mem_cons_of_mem _ (ih hlisted.2 hcaller)

theorem Listed.callee_mem_earlier {earlier : List Nat}
    (hlisted : Listed calls [] (operation :: earlier)) {callee : Nat}
    (hcalls : CallsTo calls operation callee) : callee ∈ earlier := by
  obtain ⟨site, hsite, rfl⟩ := hcalls
  simpa [Reported] using hlisted.1 site hsite

theorem Listed.reached_mem {order : List Nat} (hlisted : Listed calls [] order)
    {caller reached : Nat} (hcaller : caller ∈ order)
    (hreach : Relation.ReflTransGen (CallsTo calls) caller reached) : reached ∈ order := by
  induction hreach with
  | refl => exact hcaller
  | tail _ hcalls ih => exact hlisted.callee_mem ih hcalls

/-- Operations that all stand behind their callees call each other in no cycle. -/
theorem Listed.not_transGen {order : List Nat} (hlisted : Listed calls [] order)
    (hnodup : order.Nodup) : ∀ n ∈ order, ¬ Relation.TransGen (CallsTo calls) n n := by
  induction order with
  | nil => simp
  | cons operation earlier ih =>
      intro n hn hcycle
      rcases List.mem_cons.mp hn with rfl | hn
      · obtain ⟨callee, hcalls, hback⟩ := Relation.TransGen.head'_iff.mp hcycle
        have hcallee := hlisted.callee_mem_earlier hcalls
        exact (List.nodup_cons.mp hnodup).1 (hlisted.2.reached_mem hcallee hback)
      · exact ih hlisted.2 (List.nodup_cons.mp hnodup).2 n hn hcycle

/-- What calls followed one level deeper make of an operation, from what they make of those that it
calls, they make of every listed one when they are followed as deep as the list is long. -/
theorem Listed.depth_induction {order : List Nat} (hlisted : Listed calls [] order)
    {motive : Nat → Nat → Prop}
    (hstep : ∀ depth, ∀ n ∈ order, (∀ callee, CallsTo calls n callee → motive depth callee) →
      motive (depth + 1) n)
    {depth : Nat} (hdepth : order.length ≤ depth) : ∀ n ∈ order, motive depth n := by
  induction order generalizing depth with
  | nil => simp
  | cons operation earlier ih =>
      have hearlier : ∀ {depth : Nat}, earlier.length ≤ depth → ∀ n ∈ earlier, motive depth n :=
        ih hlisted.2 fun depth n hn => hstep depth n (List.mem_cons_of_mem _ hn)
      intro n hn
      rcases List.mem_cons.mp hn with rfl | hn
      · cases depth with
        | zero => simp at hdepth
        | succ depth =>
            exact hstep depth n List.mem_cons_self fun callee hcalls =>
              hearlier (Nat.le_of_succ_le_succ hdepth) callee (hlisted.callee_mem_earlier hcalls)
      · exact hearlier (Nat.le_of_succ_le hdepth) n hn

/-- What holds of an operation once it holds of those it calls holds of every listed one. -/
theorem Listed.induction {order : List Nat} (hlisted : Listed calls [] order)
    {motive : Nat → Prop}
    (hstep : ∀ n ∈ order, (∀ callee, CallsTo calls n callee → motive callee) → motive n) :
    ∀ n ∈ order, motive n :=
  hlisted.depth_induction (motive := fun _ => motive) (fun _ => hstep) (Nat.le_refl _)

/-- A chain of calls is shorter than the list of operations. -/
theorem Listed.chain_length_lt {order chain : List Nat} (hlisted : Listed calls [] order) {n : Nat}
    (hn : n ∈ order) (hchain : (n :: chain).IsChain (CallsTo calls)) :
    chain.length < order.length := by
  induction order generalizing n chain with
  | nil => simp at hn
  | cons operation earlier ih =>
      rw [List.length_cons]
      rcases List.mem_cons.mp hn with rfl | hn
      · cases chain with
        | nil => simp
        | cons callee others =>
            obtain ⟨hcalls, hothers⟩ := List.isChain_cons_cons.mp hchain
            have hlength := ih hlisted.2 (hlisted.callee_mem_earlier hcalls) hothers
            exact Nat.succ_lt_succ hlength
      · exact Nat.lt_succ_of_lt (ih hlisted.2 hn hchain)

/-- The walk reports nothing exactly when the calls form no cycle. -/
theorem callOrder_cycles_eq_nil_iff
    (hclosed : ∀ n < count, ∀ site ∈ calls n, site.callee < count)
    (houtside : ∀ n, count ≤ n → calls n = []) :
    (callOrder count calls).cycles = [] ↔ ∀ n, ¬ Relation.TransGen (CallsTo calls) n n := by
  constructor
  · intro hnone n hcycle
    have hlisted := callOrder_listed hclosed
    rw [hnone] at hlisted
    have hperm := (List.reverse_perm _).trans (callOrder_perm calls count)
    have hnodup := hperm.nodup_iff.mpr List.nodup_range
    refine hlisted.not_transGen hnodup n (hperm.mem_iff.mpr ?_) hcycle
    obtain ⟨callee, ⟨site, hsite, _⟩, _⟩ := Relation.TransGen.head'_iff.mp hcycle
    by_contra hn
    rw [houtside n (by simpa using hn)] at hsite
    simp at hsite
  · intro hacyclic
    apply List.eq_nil_iff_forall_not_mem.mpr
    intro cycle hcycle
    obtain ⟨first, hfirst⟩ := CallsTo.of_closes (callOrder_cycles_close calls count cycle hcycle)
    exact hacyclic first hfirst

end GateBench.Program
