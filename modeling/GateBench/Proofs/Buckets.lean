import GateBench.Histogram.Basic
import Mathlib.Algebra.GroupWithZero.Nat
import Mathlib.Data.List.Induction
import Mathlib.Data.List.Sort
import Mathlib.Data.String.Basic

/-!
The buckets of a histogram.  Buckets stay in ascending order, so a label has one bucket, and
counting it changes no other.  The histogram of pairs has a bucket for each label among them, which
holds the sum of its counts; so it depends on these sums only, in whatever order the pairs come and
however their counts are split.
-/

namespace GateBench.Histogram

/-! ### Ascending buckets -/

/-- Buckets with ascending labels. -/
def Ascends (buckets : List (String × Nat)) : Prop :=
  buckets.Pairwise fun first second => first.1 < second.1

variable {buckets : List (String × Nat)}

/-- A label in front of the first of ascending buckets is in front of all. -/
theorem lt_of_lt_first {label : String} {first bucket : String × Nat}
    {others : List (String × Nat)} (hascends : Ascends (first :: others)) (hlt : label < first.1)
    (hmem : bucket ∈ first :: others) : label < bucket.1 := by
  rcases List.mem_cons.mp hmem with rfl | hmem
  · exact hlt
  · exact hlt.trans ((List.pairwise_cons.mp hascends).1 bucket hmem)

/-- A label in front of all buckets has none among them. -/
theorem lookup_eq_none_of_lt {label : String} (hlt : ∀ bucket ∈ buckets, label < bucket.1) :
    buckets.lookup label = none := by
  rw [List.lookup_eq_none_iff]
  intro bucket hbucket
  simpa using (hlt bucket hbucket).ne

theorem lookup_cons_of_ne {label other : String} (hne : other ≠ label) (count : Nat)
    (buckets : List (String × Nat)) :
    ((label, count) :: buckets).lookup other = buckets.lookup other := by
  rw [List.lookup_cons, beq_eq_false_iff_ne.mpr hne]

/-- In ascending buckets, looking up a label finds its only bucket. -/
theorem mem_iff_lookup (hascends : Ascends buckets) {label : String} {count : Nat} :
    (label, count) ∈ buckets ↔ buckets.lookup label = some count := by
  induction buckets with
  | nil => simp
  | cons first others ih =>
      obtain ⟨hfirst, hothers⟩ := List.pairwise_cons.mp hascends
      by_cases heq : label = first.1
      · subst heq
        have hnone : (first.1, count) ∉ others := fun hmem =>
          lt_irrefl first.1 (hfirst (first.1, count) hmem)
        rw [List.mem_cons, or_iff_left hnone, List.lookup_cons_self, Option.some_inj]
        exact ⟨fun h => (congrArg Prod.snd h).symm, fun h => Prod.ext rfl h.symm⟩
      · have hne : (label, count) ≠ first := fun h => heq (congrArg Prod.fst h)
        rw [List.mem_cons, or_iff_right hne, ih hothers, lookup_cons_of_ne heq]

/-- Ascending buckets are known by what is found in them. -/
theorem eq_of_lookup_eq {others : List (String × Nat)} (hascends : Ascends buckets)
    (hothers : Ascends others) (hlookup : ∀ label, buckets.lookup label = others.lookup label) :
    buckets = others := by
  have : Std.Irrefl fun first second : String × Nat => first.1 < second.1 :=
    ⟨fun first => lt_irrefl first.1⟩
  refine List.Pairwise.eq_of_mem_iff hascends hothers fun bucket => ?_
  rw [mem_iff_lookup hascends, mem_iff_lookup hothers, hlookup]

/-! ### Counting a label -/

theorem label_of_mem_addToBuckets {label : String} {count : Nat} {bucket : String × Nat}
    (hmem : bucket ∈ addToBuckets label count buckets) :
    bucket.1 = label ∨ ∃ other ∈ buckets, bucket.1 = other.1 := by
  induction buckets with
  | nil => simp_all [addToBuckets]
  | cons first others ih =>
      unfold addToBuckets at hmem
      split_ifs at hmem with hlt heq
      · rcases List.mem_cons.mp hmem with rfl | hmem
        · exact .inl rfl
        · exact .inr ⟨bucket, hmem, rfl⟩
      · rcases List.mem_cons.mp hmem with rfl | hmem
        · exact .inr ⟨first, List.mem_cons_self, rfl⟩
        · exact .inr ⟨bucket, List.mem_cons_of_mem _ hmem, rfl⟩
      · rcases List.mem_cons.mp hmem with rfl | hmem
        · exact .inr ⟨first, List.mem_cons_self, rfl⟩
        · rcases ih hmem with hlabel | ⟨other, hother, hlabel⟩
          · exact .inl hlabel
          · exact .inr ⟨other, List.mem_cons_of_mem _ hother, hlabel⟩

/-- Counting a label keeps the labels ascending. -/
theorem ascends_addToBuckets (hascends : Ascends buckets) (label : String) (count : Nat) :
    Ascends (addToBuckets label count buckets) := by
  induction buckets with
  | nil => exact List.pairwise_singleton _ _
  | cons first others ih =>
      obtain ⟨hfirst, hothers⟩ := List.pairwise_cons.mp hascends
      unfold addToBuckets
      split_ifs with hlt heq
      · exact List.pairwise_cons.mpr ⟨fun bucket => lt_of_lt_first hascends hlt, hascends⟩
      · exact List.pairwise_cons.mpr ⟨hfirst, hothers⟩
      · refine List.pairwise_cons.mpr ⟨?_, ih hothers⟩
        intro bucket hbucket
        rcases label_of_mem_addToBuckets hbucket with hlabel | ⟨other, hother, hlabel⟩
        · rw [hlabel]
          exact (lt_or_gt_of_ne (Ne.symm heq)).resolve_right hlt
        · rw [hlabel]
          exact hfirst other hother

/-- Counting a label adds to its bucket, which is there from then on, and to no other. -/
theorem lookup_addToBuckets (hascends : Ascends buckets) (label other : String) (count : Nat) :
    (addToBuckets label count buckets).lookup other =
      if other = label then some ((buckets.lookup label).getD 0 + count)
      else buckets.lookup other := by
  induction buckets with
  | nil =>
      by_cases hother : other = label
      · simp [addToBuckets, hother]
      · simp [addToBuckets, lookup_cons_of_ne hother, hother]
  | cons first others ih =>
      obtain ⟨firstLabel, counted⟩ := first
      obtain ⟨-, hothers⟩ := List.pairwise_cons.mp hascends
      by_cases hlt : label < firstLabel
      -- a new bucket in front hides none behind it, since the labels ascend
      · have hnone : ((firstLabel, counted) :: others).lookup label = none := by
          apply lookup_eq_none_of_lt
          intro bucket hbucket
          exact lt_of_lt_first hascends hlt hbucket
        rw [addToBuckets, if_pos hlt]
        by_cases hother : other = label
        · simp [hother, hnone]
        · rw [lookup_cons_of_ne hother, if_neg hother]
      · by_cases heq : label = firstLabel
        · subst heq
          rw [addToBuckets, if_neg hlt, if_pos rfl]
          by_cases hother : other = label
          · simp [hother]
          · simp [lookup_cons_of_ne hother, hother]
        · rw [addToBuckets, if_neg hlt, if_neg heq]
          by_cases hother : other = firstLabel
          · simp [hother, Ne.symm heq]
          · rw [lookup_cons_of_ne hother, lookup_cons_of_ne hother, lookup_cons_of_ne heq,
              ih hothers]

theorem foldr_addToBuckets (label : String) (count : Nat) (buckets : List (String × Nat)) :
    (addToBuckets label count buckets).foldr (fun bucket sum => bucket.2 + sum) 0 =
      buckets.foldr (fun bucket sum => bucket.2 + sum) 0 + count := by
  induction buckets with
  | nil => simp [addToBuckets]
  | cons first others ih =>
      unfold addToBuckets
      split_ifs with hlt heq
      · exact Nat.add_comm _ _
      · exact Nat.add_right_comm _ _ _
      · simp only [List.foldr_cons, ih, Nat.add_assoc]

/-! ### Histograms of pairs -/

/-- The sum of the counts that pairs give a label. -/
def sumOf (label : String) (pairs : List (String × Nat)) : Nat :=
  ((pairs.filter (·.1 = label)).map Prod.snd).sum

variable {pairs others : List (String × Nat)}

theorem sumOf_cons (label : String) (first : String × Nat) (others : List (String × Nat)) :
    sumOf label (first :: others) =
      (if label = first.1 then first.2 else 0) + sumOf label others := by
  by_cases heq : first.1 = label
  · simp [sumOf, heq]
  · simp [sumOf, heq, Ne.symm heq]

theorem sumOf_append (label : String) (pairs others : List (String × Nat)) :
    sumOf label (pairs ++ others) = sumOf label pairs + sumOf label others := by
  simp [sumOf]

/-- Counts of one label. -/
theorem sumOf_map_pair (label other : String) (counts : List Nat) :
    sumOf label (counts.map (other, ·)) = if label = other then counts.sum else 0 := by
  by_cases heq : label = other
  · subst heq
    simp [sumOf, List.filter_map, Function.comp_def]
  · simp [sumOf, List.filter_map, Function.comp_def, heq, Ne.symm heq]

theorem sumOf_eq_zero_of_notMem {label : String} (h : label ∉ pairs.map Prod.fst) :
    sumOf label pairs = 0 := by
  have hnone : pairs.filter (·.1 = label) = [] := by
    simp only [List.filter_eq_nil_iff, decide_eq_true_eq]
    intro pair hpair heq
    exact h (heq ▸ List.mem_map_of_mem hpair)
  rw [sumOf, hnone]
  rfl

theorem sumOf_perm (hperm : pairs.Perm others) (label : String) :
    sumOf label pairs = sumOf label others :=
  ((hperm.filter _).map _).sum_nat

theorem ofPairs_concat (pairs : List (String × Nat)) (pair : String × Nat) :
    ofPairs (pairs ++ [pair]) = (ofPairs pairs).add pair.1 pair.2 := by
  simp [ofPairs]

theorem ascends_ofPairs (pairs : List (String × Nat)) : Ascends (ofPairs pairs).buckets := by
  induction pairs using List.reverseRecOn with
  | nil => exact List.Pairwise.nil
  | append_singleton pairs pair ih =>
      rw [ofPairs_concat]
      exact ascends_addToBuckets ih pair.1 pair.2

/-- Every label among pairs has a bucket with the sum of its counts, be it zero, and no other label
has one. -/
theorem lookup_ofPairs (pairs : List (String × Nat)) (label : String) :
    (ofPairs pairs).buckets.lookup label =
      if label ∈ pairs.map Prod.fst then some (sumOf label pairs) else none := by
  induction pairs using List.reverseRecOn with
  | nil => rfl
  | append_singleton pairs pair ih =>
      obtain ⟨last, count⟩ := pair
      have hsum : sumOf label (pairs ++ [(last, count)]) =
          sumOf label pairs + if label = last then count else 0 := by
        have hlast := sumOf_map_pair label last [count]
        rw [List.map_singleton, List.sum_singleton] at hlast
        rw [sumOf_append, hlast]
      rw [ofPairs_concat, add, lookup_addToBuckets (ascends_ofPairs pairs), hsum]
      by_cases heq : label = last
      · subst heq
        have hfound : ((ofPairs pairs).buckets.lookup label).getD 0 = sumOf label pairs := by
          rw [ih]
          by_cases hmem : label ∈ pairs.map Prod.fst
          · rw [if_pos hmem, Option.getD_some]
          · rw [if_neg hmem, Option.getD_none, sumOf_eq_zero_of_notMem hmem]
        simp [hfound]
      · rw [if_neg heq, if_neg heq, ih]
        simp only [List.map_append, List.mem_append, List.map_singleton, List.mem_singleton, heq,
          or_false, Nat.add_zero]

theorem mem_ofPairs_iff (pairs : List (String × Nat)) {label : String} {count : Nat} :
    (label, count) ∈ (ofPairs pairs).buckets ↔
      label ∈ pairs.map Prod.fst ∧ sumOf label pairs = count := by
  rw [mem_iff_lookup (ascends_ofPairs pairs), lookup_ofPairs]
  split_ifs with hmem
  · rw [Option.some_inj, and_iff_right hmem]
  · exact ⟨nofun, fun h => absurd h.1 hmem⟩

/-- The count of a label is the sum of its counts. -/
theorem count_ofPairs (pairs : List (String × Nat)) (label : String) :
    (ofPairs pairs).count label = sumOf label pairs := by
  rw [Histogram.count, lookup_ofPairs]
  split_ifs with hmem
  · rfl
  · exact (sumOf_eq_zero_of_notMem hmem).symm

/-- The counts of a histogram add up to those of its pairs. -/
theorem total_ofPairs (pairs : List (String × Nat)) :
    (ofPairs pairs).total = (pairs.map Prod.snd).sum := by
  induction pairs using List.reverseRecOn with
  | nil => rfl
  | append_singleton pairs pair ih =>
      rw [ofPairs_concat, List.map_append, List.map_singleton, List.sum_append, List.sum_singleton,
        ← ih]
      exact foldr_addToBuckets pair.1 pair.2 _

/-! ### Pairs with the same sums -/

/-- Pairs that name the same labels, and of whose counts each label has the same sum. -/
structure SameSums (pairs others : List (String × Nat)) : Prop where
  labels : ∀ label, label ∈ pairs.map Prod.fst ↔ label ∈ others.map Prod.fst
  sums : ∀ label, sumOf label pairs = sumOf label others

theorem SameSums.of_perm (hperm : pairs.Perm others) : SameSums pairs others :=
  ⟨fun _ => (hperm.map Prod.fst).mem_iff, sumOf_perm hperm⟩

/-- The histogram of pairs depends on the sums of their labels only, and tells them. -/
theorem ofPairs_eq_iff : ofPairs pairs = ofPairs others ↔ SameSums pairs others := by
  constructor
  · intro heq
    have hlookup : ∀ label, (ofPairs pairs).buckets.lookup label =
        (ofPairs others).buckets.lookup label := fun label => by rw [heq]
    constructor
    · intro label
      have hfound := congrArg Option.isSome (hlookup label)
      rw [lookup_ofPairs, lookup_ofPairs] at hfound
      split_ifs at hfound <;> simp_all
    · intro label
      rw [← count_ofPairs, heq, count_ofPairs]
  · rintro ⟨hlabels, hsums⟩
    have hlookup : ∀ label, (ofPairs pairs).buckets.lookup label =
        (ofPairs others).buckets.lookup label := fun label => by
      rw [lookup_ofPairs, lookup_ofPairs, hsums, if_congr (hlabels label) rfl rfl]
    exact congrArg Histogram.mk
      (eq_of_lookup_eq (ascends_ofPairs pairs) (ascends_ofPairs others) hlookup)

/-- The order of pairs makes no difference to their histogram. -/
theorem ofPairs_perm (hperm : pairs.Perm others) : ofPairs pairs = ofPairs others :=
  ofPairs_eq_iff.mpr (.of_perm hperm)

/-- The pairs of groups of counts, each under its label. -/
def ungrouped (groups : List (String × List Nat)) : List (String × Nat) :=
  groups.flatMap fun group => group.2.map (group.1, ·)

/-- A pair for each of groups of counts, with their sum. -/
def grouped (groups : List (String × List Nat)) : List (String × Nat) :=
  groups.map fun group => (group.1, group.2.sum)

/-- Adding up the counts of each group keeps the sums of all labels. -/
theorem sameSums_grouped {groups : List (String × List Nat)}
    (hgroups : ∀ group ∈ groups, group.2 ≠ []) :
    SameSums (grouped groups) (ungrouped groups) := by
  induction groups with
  | nil => exact .of_perm (.refl _)
  | cons first others ih =>
      obtain ⟨hfirst, hothers⟩ := List.forall_mem_cons.mp hgroups
      obtain ⟨hlabels, hsums⟩ := ih hothers
      constructor
      · intro label
        have hnamed : label ∈ (first.2.map (first.1, ·)).map Prod.fst ↔ label = first.1 := by
          simp only [List.map_map, Function.comp_def, List.map_const', List.mem_replicate,
            ne_eq, List.length_eq_zero_iff, hfirst, not_false_iff, true_and]
        change label ∈ first.1 :: (grouped others).map Prod.fst ↔
          label ∈ (first.2.map (first.1, ·) ++ ungrouped others).map Prod.fst
        rw [List.mem_cons, List.map_append, List.mem_append, hnamed, hlabels]
      · intro label
        change sumOf label ([first.2.sum].map (first.1, ·) ++ grouped others) =
          sumOf label (first.2.map (first.1, ·) ++ ungrouped others)
        rw [sumOf_append, sumOf_append, sumOf_map_pair, sumOf_map_pair, hsums,
          List.sum_singleton]

/-- However the counts of labels are split into pairs, their histogram is the same. -/
theorem ofPairs_grouped {groups : List (String × List Nat)}
    (hgroups : ∀ group ∈ groups, group.2 ≠ []) (hperm : (ungrouped groups).Perm pairs) :
    ofPairs (grouped groups) = ofPairs pairs :=
  (ofPairs_eq_iff.mpr (sameSums_grouped hgroups)).trans (ofPairs_perm hperm)

end GateBench.Histogram
