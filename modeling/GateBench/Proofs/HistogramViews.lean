import GateBench.Proofs.Buckets
import GateBench.Proofs.ByteOrder
import Mathlib.Algebra.Order.BigOperators.Group.List

/-!
The views of a histogram.  What is shown of a histogram depends on the counts only, not on how they
came in: its buckets stand in the order of the bytes of their labels and make the same histogram
again, its total is the sum of all counts, and of the labels with the highest count the first leads.
-/

namespace GateBench.Histogram

variable {buckets pairs : List (String × Nat)}

/-! ### Buckets as pairs -/

/-- Ascending buckets have one count for each label, which is its sum. -/
theorem sumOf_of_ascends (hascends : Ascends buckets) (label : String) :
    sumOf label buckets = (buckets.lookup label).getD 0 := by
  induction buckets with
  | nil => rfl
  | cons first others ih =>
      obtain ⟨hfirst, hothers⟩ := List.pairwise_cons.mp hascends
      rw [sumOf_cons]
      by_cases heq : label = first.1
      · have hnone : first.1 ∉ others.map Prod.fst := by
          rw [List.mem_map]
          rintro ⟨bucket, hbucket, hlabel⟩
          exact (hfirst bucket hbucket).ne' hlabel
        rw [heq, if_pos rfl, sumOf_eq_zero_of_notMem hnone, List.lookup_cons_self]
        rfl
      · rw [if_neg heq, lookup_cons_of_ne heq, ih hothers, Nat.zero_add]

theorem sameSums_buckets (pairs : List (String × Nat)) :
    SameSums (ofPairs pairs).buckets pairs := by
  constructor
  · intro label
    simp only [List.mem_map, Prod.exists, exists_and_right, exists_eq_right, mem_ofPairs_iff,
      exists_and_left, exists_eq', and_true]
  · intro label
    rw [sumOf_of_ascends (ascends_ofPairs pairs), ← count_ofPairs, Histogram.count]

/-- The buckets of a histogram make it again. -/
theorem ofPairs_buckets (pairs : List (String × Nat)) :
    ofPairs (ofPairs pairs).buckets = ofPairs pairs :=
  ofPairs_eq_iff.mpr (sameSums_buckets pairs)

/-- The labels of buckets ascend byte by byte. -/
theorem bytes_ascend (pairs : List (String × Nat)) :
    (ofPairs pairs).buckets.Pairwise fun first second =>
      Text.bytes first.1 < Text.bytes second.1 :=
  (ascends_ofPairs pairs).imp Text.bytes_lt_iff.mpr

theorem buckets_eq_nil_iff : (ofPairs pairs).buckets = [] ↔ pairs = [] := by
  have hlabels := (sameSums_buckets pairs).labels
  rw [← List.map_eq_nil_iff (f := Prod.fst), ← List.map_eq_nil_iff (f := Prod.fst) (l := pairs),
    List.eq_nil_iff_forall_not_mem, List.eq_nil_iff_forall_not_mem]
  exact forall_congr' fun label => not_congr (hlabels label)

/-! ### The leader -/

/-- A bucket leads if no other has a higher count, and those with the same count have labels whose
bytes come later. -/
structure Leads (buckets : List (String × Nat)) (leader : String × Nat) : Prop where
  mem : leader ∈ buckets
  highest : ∀ bucket ∈ buckets, bucket.2 ≤ leader.2
  smallest : ∀ bucket ∈ buckets, bucket.2 = leader.2 → bucket ≠ leader →
    Text.bytes leader.1 < Text.bytes bucket.1

/-- Only one bucket leads. -/
theorem Leads.eq {leader other : String × Nat} (hleader : Leads buckets leader)
    (hother : Leads buckets other) : leader = other := by
  by_contra hne
  have hcount : leader.2 = other.2 :=
    le_antisymm (hother.highest leader hleader.mem) (hleader.highest other hother.mem)
  have hlt := hleader.smallest other hother.mem hcount.symm (Ne.symm hne)
  have hgt := hother.smallest leader hleader.mem hcount hne
  exact List.lt_asymm hlt hgt

theorem mostFrequent?_concat (buckets : List (String × Nat)) (last : String × Nat) :
    mostFrequent? ⟨buckets ++ [last]⟩ =
      match mostFrequent? ⟨buckets⟩ with
      | some leader => if last.2 ≤ leader.2 then some leader else some last
      | none => some last := by
  rw [mostFrequent?, List.foldl_append]
  rfl

/-- A bucket behind all others takes the lead only with a higher count. -/
theorem Leads.concat {leader last : String × Nat} (hleads : Leads buckets leader)
    (hlast : ∀ bucket ∈ buckets, bucket.1 < last.1) :
    Leads (buckets ++ [last]) (if last.2 ≤ leader.2 then leader else last) := by
  split_ifs with hle
  · have hbehind : Text.bytes leader.1 < Text.bytes last.1 :=
      Text.bytes_lt_iff.mpr (hlast leader hleads.mem)
    refine ⟨List.mem_append_left _ hleads.mem, ?_, ?_⟩
    · exact List.forall_mem_append.mpr ⟨hleads.highest, List.forall_mem_singleton.mpr hle⟩
    · exact List.forall_mem_append.mpr
        ⟨hleads.smallest, List.forall_mem_singleton.mpr fun _ _ => hbehind⟩
  · have hlower : ∀ bucket ∈ buckets, bucket.2 < last.2 := fun bucket hbucket =>
      (hleads.highest bucket hbucket).trans_lt (Nat.lt_of_not_le hle)
    refine ⟨List.mem_append_right _ List.mem_cons_self, ?_, ?_⟩
    · exact List.forall_mem_append.mpr
        ⟨fun bucket hbucket => (hlower bucket hbucket).le, List.forall_mem_singleton.mpr le_rfl⟩
    · refine List.forall_mem_append.mpr ⟨?_, List.forall_mem_singleton.mpr ?_⟩
      · exact fun bucket hbucket hcount => absurd hcount (hlower bucket hbucket).ne
      · exact fun _ hne => absurd rfl hne

/-- The most frequent of ascending buckets leads them, and there is one unless there are none. -/
theorem leads_mostFrequent? (hascends : Ascends buckets) (hne : buckets ≠ []) :
    ∃ leader, mostFrequent? ⟨buckets⟩ = some leader ∧ Leads buckets leader := by
  induction buckets using List.reverseRecOn with
  | nil => exact absurd rfl hne
  | append_singleton others last ih =>
      obtain ⟨hothers, -, hlast⟩ := List.pairwise_append.mp hascends
      rw [mostFrequent?_concat]
      by_cases hnil : others = []
      · subst hnil
        exact ⟨last, rfl, by simp, by simp, by simp⟩
      · obtain ⟨leader, hleader, hleads⟩ := ih hothers hnil
        refine ⟨if last.2 ≤ leader.2 then leader else last, ?_, hleads.concat ?_⟩
        · rw [hleader]
          exact (apply_ite some _ _ _).symm
        · exact fun bucket hbucket => hlast bucket hbucket last List.mem_cons_self

theorem mostFrequent?_eq_some_iff {leader : String × Nat} :
    (ofPairs pairs).mostFrequent? = some leader ↔ Leads (ofPairs pairs).buckets leader := by
  constructor
  · intro hfound
    have hne : (ofPairs pairs).buckets ≠ [] := fun hnil => by
      rw [mostFrequent?, hnil] at hfound
      exact absurd hfound nofun
    obtain ⟨found, heq, hleads⟩ := leads_mostFrequent? (ascends_ofPairs pairs) hne
    exact Option.some_inj.mp (heq.symm.trans hfound) ▸ hleads
  · intro hleads
    have hne : (ofPairs pairs).buckets ≠ [] := List.ne_nil_of_mem hleads.mem
    obtain ⟨found, heq, hfound⟩ := leads_mostFrequent? (ascends_ofPairs pairs) hne
    exact hfound.eq hleads ▸ heq

theorem mostFrequent?_eq_none_iff : (ofPairs pairs).mostFrequent? = none ↔ pairs = [] := by
  rw [← buckets_eq_nil_iff]
  constructor
  · intro hnone
    by_contra hne
    obtain ⟨found, heq, -⟩ := leads_mostFrequent? (ascends_ofPairs pairs) hne
    exact absurd (heq.symm.trans hnone) nofun
  · intro hnil
    rw [mostFrequent?, hnil]
    rfl

/-! ### Words -/

/-- Every count of a histogram fits into a word, and every sum on the way to its total. -/
structure FitsWords (histogram : Histogram) : Prop where
  counts_lt : ∀ bucket ∈ histogram.buckets, bucket.2 < UInt64.size
  sums_lt : ∀ summed, summed <+: histogram.buckets → (summed.map Prod.snd).sum < UInt64.size

theorem total_eq_sum (buckets : List (String × Nat)) :
    total ⟨buckets⟩ = (buckets.map Prod.snd).sum := by
  rw [total, List.sum, List.foldr_map]

theorem fitsWords_of_total {histogram : Histogram} (htotal : histogram.total < UInt64.size) :
    histogram.FitsWords := by
  rw [total_eq_sum] at htotal
  constructor
  · intro bucket hbucket
    exact (List.le_sum_of_mem (List.mem_map_of_mem hbucket)).trans_lt htotal
  · rintro summed ⟨others, hothers⟩
    rw [← hothers, List.map_append, List.sum_append] at htotal
    exact (Nat.le_add_right _ _).trans_lt htotal

/-- Counts only grow while pairs come in, so they fit at all times if they do in the end. -/
theorem fitsWords_of_prefix {earlier : List (String × Nat)} (hearlier : earlier <+: pairs)
    (hsum : (pairs.map Prod.snd).sum < UInt64.size) : (ofPairs earlier).FitsWords := by
  obtain ⟨later, rfl⟩ := hearlier
  rw [List.map_append, List.sum_append] at hsum
  apply fitsWords_of_total
  rw [total_ofPairs]
  exact (Nat.le_add_right _ _).trans_lt hsum

/-! ### Views -/

/-- What is read off a histogram depends on the sums of its labels only, so it is the same for pairs
in another order, and however the counts of a label are split among pairs.  Its buckets, in the
order of the bytes of their labels, hold these sums and make the histogram again; its total is the
sum of all counts; and one bucket leads, unless there are no pairs, be it with no count.  If this
total fits into a word, so do all numbers on the way to it. -/
theorem views_canonical (pairs : List (String × Nat)) :
    (∀ others, pairs.Perm others → ofPairs others = ofPairs pairs) ∧
      (∀ groups : List (String × List Nat), (∀ group ∈ groups, group.2 ≠ []) →
        (ungrouped groups).Perm pairs → ofPairs (grouped groups) = ofPairs pairs) ∧
      (∀ others, ofPairs others = ofPairs pairs ↔ SameSums others pairs) ∧
      (∀ label count, (label, count) ∈ (ofPairs pairs).buckets ↔
        label ∈ pairs.map Prod.fst ∧ sumOf label pairs = count) ∧
      (ofPairs pairs).buckets.Pairwise (fun first second =>
        Text.bytes first.1 < Text.bytes second.1) ∧
      ofPairs (ofPairs pairs).buckets = ofPairs pairs ∧
      (ofPairs pairs).total = (pairs.map Prod.snd).sum ∧
      ((ofPairs pairs).mostFrequent? = none ↔ pairs = []) ∧
      (∀ leader, (ofPairs pairs).mostFrequent? = some leader ↔
        Leads (ofPairs pairs).buckets leader) ∧
      ((pairs.map Prod.snd).sum < UInt64.size →
        ∀ earlier, earlier <+: pairs → (ofPairs earlier).FitsWords) := by
  refine ⟨?_, ?_, ?_, ?_, bytes_ascend pairs, ofPairs_buckets pairs, total_ofPairs pairs,
    mostFrequent?_eq_none_iff, fun leader => mostFrequent?_eq_some_iff, ?_⟩
  · exact fun others hperm => (ofPairs_perm hperm).symm
  · exact fun groups hgroups hperm => ofPairs_grouped hgroups hperm
  · exact fun others => ofPairs_eq_iff
  · exact fun label count => mem_ofPairs_iff pairs
  · exact fun hsum earlier hearlier => fitsWords_of_prefix hearlier hsum

/-- Pairs without a count, of labels one of which starts another. -/
def uncounted : List (String × Nat) :=
  [("é", 0), ("10", 0), ("z", 0), ("10", 0), ("1", 0)]

theorem views_canonical_uncounted :
    (ofPairs uncounted).buckets = [("1", 0), ("10", 0), ("z", 0), ("é", 0)] ∧
      ofPairs uncounted.reverse = ofPairs uncounted ∧
      ofPairs (grouped [("10", [0, 0]), ("é", [0]), ("z", [0]), ("1", [0])]) =
        ofPairs uncounted ∧
      (ofPairs uncounted).mostFrequent? = some ("1", 0) ∧
      Leads (ofPairs uncounted).buckets ("1", 0) ∧
      (ofPairs uncounted.dropLast).FitsWords := by
  obtain ⟨hperm, hgrouped, -, -, -, -, -, -, hleads, hfits⟩ := views_canonical uncounted
  have hleader : (ofPairs uncounted).mostFrequent? = some ("1", 0) := by decide
  refine ⟨by decide, ?_, ?_, hleader, (hleads _).mp hleader, ?_⟩
  · exact hperm uncounted.reverse (List.reverse_perm uncounted).symm
  · exact hgrouped [("10", [0, 0]), ("é", [0]), ("z", [0]), ("1", [0])] (by decide) (by decide)
  · exact hfits (by decide) uncounted.dropLast (List.dropLast_prefix uncounted)

end GateBench.Histogram
