import GateBench.Proofs.JsonCodec
import Mathlib.Data.List.Perm.Basic

/-!
The order of members.  A decoder looks the members of an object up by their names, and what it does
not know it passes over; so it makes the same of a value and of one whose objects have their members
in another order, at any depth.
-/

namespace GateBench

namespace Json

/-- The same value with the members of its objects in another order, at any depth.  Items keep their
places, and members that repeat a name are kept as they are. -/
inductive Reordered : Json → Json → Prop where
  | refl (json : Json) : Reordered json json
  | trans {first second third : Json} (hfirst : Reordered first second)
      (hsecond : Reordered second third) : Reordered first third
  | members {members shuffled : List (Option String × Json)} (hperm : members.Perm shuffled) :
      Reordered (.object members) (.object shuffled)
  | inItem {item other : Json} (before after : List Json) (hitem : Reordered item other) :
      Reordered (.array (before ++ item :: after)) (.array (before ++ other :: after))
  | inMember {value other : Json} (before : List (Option String × Json)) (name : Option String)
      (after : List (Option String × Json)) (hvalue : Reordered value other) :
      Reordered (.object (before ++ (name, value) :: after))
        (.object (before ++ (name, other) :: after))

/-! ### Soundness -/

theorem allSound_iff_forall {levels : Nat} {items : List Json} :
    allSound levels items = true ↔ ∀ item ∈ items, item.isSound levels = true := by
  induction items with
  | nil => simp [allSound]
  | cons first others ih => simp [allSound, ih]

theorem membersSound_iff_forall {levels : Nat} {members : List (Option String × Json)} :
    membersSound levels members = true ↔
      ∀ member ∈ members, member.1.isSome = true ∧ member.2.isSound levels = true := by
  induction members with
  | nil => simp [membersSound]
  | cons first others ih => simp [membersSound, ih]

/-- A sound value stays sound, wherever it stands. -/
theorem Reordered.isSound_eq {json other : Json} (h : Reordered json other) (levels : Nat) :
    json.isSound levels = other.isSound levels := by
  induction h generalizing levels with
  | refl => rfl
  | trans _ _ ihfirst ihsecond => exact (ihfirst levels).trans (ihsecond levels)
  | members hperm =>
      rw [Bool.eq_iff_iff]
      simp only [isSound, Bool.and_eq_true, membersSound_iff_forall, hperm.mem_iff]
  | inItem before after _ ih =>
      rw [Bool.eq_iff_iff]
      simp only [isSound, Bool.and_eq_true, allSound_iff_forall, List.forall_mem_append,
        List.forall_mem_cons, ih]
  | inMember before name after _ ih =>
      rw [Bool.eq_iff_iff]
      simp only [isSound, Bool.and_eq_true, membersSound_iff_forall, List.forall_mem_append,
        List.forall_mem_cons, ih]

/-! ### Decoders of single values -/

/-- A decoder pays no heed to the order of members. -/
def Decoder.IgnoresOrder {α : Type} (decoder : Decoder α) : Prop :=
  ∀ (place : Place) {json other : Json}, Reordered json other →
    decoder place json = decoder place other

section Decoders

variable {α : Type} {decoder : Decoder α}

/-- It is enough that no single step of a reordering is noticed. -/
theorem ignoresOrder_of_steps
    (hmembers : ∀ place {members shuffled : List (Option String × Json)}, members.Perm shuffled →
      decoder place (.object members) = decoder place (.object shuffled))
    (hitem : ∀ place {item other : Json} (before after : List Json), Reordered item other →
      decoder place (.array (before ++ item :: after)) =
        decoder place (.array (before ++ other :: after)))
    (hmember : ∀ place {value other : Json} (before : List (Option String × Json)) name after,
      Reordered value other →
        decoder place (.object (before ++ (name, value) :: after)) =
          decoder place (.object (before ++ (name, other) :: after))) :
    decoder.IgnoresOrder := by
  intro place json other h
  induction h with
  | refl => rfl
  | trans _ _ ihfirst ihsecond => exact ihfirst.trans ihsecond
  | members hperm => exact hmembers place hperm
  | inItem before after hvalue => exact hitem place before after hvalue
  | inMember before name after hvalue => exact hmember place before name after hvalue

/-- A decoder that takes neither arrays nor objects has no members to heed. -/
theorem ignoresOrder_of_flat (harray : ∀ place items, decoder place (.array items) = none)
    (hobject : ∀ place members, decoder place (.object members) = none) :
    decoder.IgnoresOrder :=
  ignoresOrder_of_steps (fun place _ _ _ => by rw [hobject, hobject])
    (fun place _ _ _ _ _ => by rw [harray, harray])
    (fun place _ _ _ _ _ _ => by rw [hobject, hobject])

theorem decodeText_ignoresOrder : decodeText.IgnoresOrder :=
  ignoresOrder_of_flat (fun _ _ => rfl) fun _ _ => rfl

theorem decodeBool_ignoresOrder : decodeBool.IgnoresOrder :=
  ignoresOrder_of_flat (fun _ _ => rfl) fun _ _ => rfl

theorem decodeBelow_ignoresOrder (bound : Nat) : (decodeBelow bound).IgnoresOrder :=
  ignoresOrder_of_flat (fun _ _ => rfl) fun _ _ => rfl

theorem decodeWord_ignoresOrder : decodeWord.IgnoresOrder :=
  decodeBelow_ignoresOrder UInt64.size

theorem decodeList_ignoresOrder (hdecoder : decoder.IgnoresOrder) :
    (decodeList decoder).IgnoresOrder := by
  refine ignoresOrder_of_steps (fun _ _ _ _ => rfl) ?_ fun _ _ _ _ _ _ _ => rfl
  intro place item other before after hitem
  simp only [decodeList, List.mapM_append, List.mapM_cons, hdecoder place.inner hitem]

theorem decodeOptional_ignoresOrder (hdecoder : decoder.IgnoresOrder) :
    (decodeOptional decoder).IgnoresOrder := by
  have hobject : ∀ place members, decodeOptional decoder place (.object members) =
      (decoder place (.object members)).map some := fun _ _ => rfl
  have harray : ∀ place items, decodeOptional decoder place (.array items) =
      (decoder place (.array items)).map some := fun _ _ => rfl
  refine ignoresOrder_of_steps ?_ ?_ ?_
  · intro place members shuffled hperm
    rw [hobject, hobject, hdecoder place (.members hperm)]
  · intro place item other before after hitem
    rw [harray, harray, hdecoder place (.inItem before after hitem)]
  · intro place value other before name after hvalue
    rw [hobject, hobject, hdecoder place (.inMember before name after hvalue)]

theorem Reordered.eq_null_iff {json other : Json} (h : Reordered json other) :
    json = .null ↔ other = .null := by
  induction h with
  | refl => rfl
  | trans _ _ ihfirst ihsecond => exact ihfirst.trans ihsecond
  | members | inItem | inMember => simp

theorem Reordered.eq_empty_iff {json other : Json} (h : Reordered json other) :
    json = .object [] ↔ other = .object [] := by
  induction h with
  | refl => rfl
  | trans _ _ ihfirst ihsecond => exact ihfirst.trans ihsecond
  | members hperm => simp only [Json.object.injEq, ← List.length_eq_zero_iff, hperm.length_eq]
  | inItem | inMember => simp

variable {choices : List (String × α)}

theorem decodeChoice_eq_none_of_length {members : List (Option String × Json)}
    (hlength : members.length ≠ 1) (place : Place) :
    decodeChoice choices place (.object members) = none := by
  unfold decodeChoice
  split
  · rename_i heq
    cases heq
  · rename_i heq
    cases heq
    exact absurd rfl hlength
  · rfl

theorem decodeChoice_eq_none_of_content {value : Json} (hnull : value ≠ .null)
    (hempty : value ≠ .object []) (name : Option String) (place : Place) :
    decodeChoice choices place (.object [(name, value)]) = none := by
  unfold decodeChoice
  split
  · rename_i heq
    cases heq
  · rename_i heq
    cases heq
    split
    · exact absurd rfl hnull
    · exact absurd rfl hempty
    · rfl
  · rfl

/-- A choice that is written as an object is its only member. -/
theorem decodeChoice_ignoresOrder : (decodeChoice choices).IgnoresOrder := by
  refine ignoresOrder_of_steps ?_ (fun _ _ _ _ _ _ => rfl) ?_
  · intro place members shuffled hperm
    by_cases hlength : members.length = 1
    · obtain ⟨member, rfl⟩ := List.length_eq_one_iff.mp hlength
      rw [List.perm_singleton.mp hperm.symm]
    · rw [decodeChoice_eq_none_of_length hlength,
        decodeChoice_eq_none_of_length (hperm.length_eq ▸ hlength)]
  · intro place value other before name after hvalue
    by_cases hlength : (before ++ (name, value) :: after).length = 1
    · obtain ⟨rfl, rfl⟩ : before = [] ∧ after = [] := by
        simp only [List.length_append, List.length_cons] at hlength
        exact ⟨List.eq_nil_of_length_eq_zero (by omega), List.eq_nil_of_length_eq_zero (by omega)⟩
      simp only [List.nil_append]
      by_cases hnull : value = .null
      · rw [hvalue.eq_null_iff.mp hnull, hnull]
      · by_cases hempty : value = .object []
        · rw [hvalue.eq_empty_iff.mp hempty, hempty]
        · rw [decodeChoice_eq_none_of_content hnull hempty,
            decodeChoice_eq_none_of_content (hvalue.eq_null_iff.not.mp hnull)
              (hvalue.eq_empty_iff.not.mp hempty)]
    · rw [decodeChoice_eq_none_of_length hlength,
        decodeChoice_eq_none_of_length (by simpa using hlength)]

end Decoders

/-! ### Records -/

/-- Fields that hold the same values under the same names, up to the order of members. -/
structure Fields.Agree (fields others : Fields) : Prop where
  place : fields.place = others.place
  lookup : ∀ name, Option.Rel Reordered (fields.values.lookup name) (others.values.lookup name)

section Records

variable {α : Type} {decoder : Decoder α} {fields others : Fields}

theorem Fields.Agree.required (h : fields.Agree others) (name : String)
    (hdecoder : decoder.IgnoresOrder) :
    fields.required name decoder = others.required name decoder := by
  have hlookup := h.lookup name
  unfold Fields.required
  rw [h.place]
  generalize fields.values.lookup name = found at hlookup ⊢
  generalize others.values.lookup name = foundOther at hlookup ⊢
  cases hlookup with
  | none => rfl
  | some hvalue => exact hdecoder _ hvalue

theorem Fields.Agree.withDefault (h : fields.Agree others) (name : String) (default : α)
    (hdecoder : decoder.IgnoresOrder) :
    fields.withDefault name default decoder = others.withDefault name default decoder := by
  have hlookup := h.lookup name
  unfold Fields.withDefault
  rw [h.place]
  generalize fields.values.lookup name = found at hlookup ⊢
  generalize others.values.lookup name = foundOther at hlookup ⊢
  cases hlookup with
  | none => rfl
  | some hvalue => exact hdecoder _ hvalue

theorem Fields.Agree.optional (h : fields.Agree others) (name : String)
    (hdecoder : decoder.IgnoresOrder) :
    fields.optional name decoder = others.optional name decoder :=
  h.withDefault name none (decodeOptional_ignoresOrder hdecoder)

/-- A found value is another one in another order if it is the same. -/
theorem rel_refl (found : Option Json) : Option.Rel Reordered found found := by
  cases found with
  | none => exact .none
  | some value => exact .some (.refl value)

theorem lookup_replaced {value other : Json} (hvalue : Reordered value other) (wanted name : String)
    (front back : List (String × Json)) :
    Option.Rel Reordered ((front ++ (name, value) :: back).lookup wanted)
      ((front ++ (name, other) :: back).lookup wanted) := by
  rw [List.lookup_append, List.lookup_append, List.lookup_cons, List.lookup_cons]
  cases front.lookup wanted with
  | some found => exact .some (.refl found)
  | none =>
      rw [Option.none_or, Option.none_or]
      cases wanted == name with
      | true => exact .some hvalue
      | false => exact rel_refl _

/-- Among names that are all different, each is found wherever it stands. -/
theorem lookup_eq_of_perm {known shuffled : List (String × Json)} (hperm : known.Perm shuffled)
    (hnodup : (known.map Prod.fst).Nodup) (wanted : String) :
    known.lookup wanted = shuffled.lookup wanted := by
  induction hperm with
  | nil => rfl
  | cons member _ ih =>
      rw [List.lookup_cons, List.lookup_cons, ih (List.nodup_cons.mp hnodup).2]
  | swap first second others =>
      obtain ⟨name, value⟩ := first
      obtain ⟨other, held⟩ := second
      have hne : other ≠ name := by
        rintro rfl
        simp at hnodup
      simp only [lookup_member]
      split_ifs with hother hname
      · exact absurd (hother.symm.trans hname) hne
      · rfl
      · rfl
      · rfl
  | trans hfirst _ ihfirst ihsecond =>
      exact (ihfirst hnodup).trans (ihsecond ((hfirst.map Prod.fst).nodup_iff.mp hnodup))

/-- The members of an object that have a proper name. -/
def properMembers (members : List (Option String × Json)) : List (String × Json) :=
  members.filterMap fun member => member.1.map fun name => (name, member.2)

theorem mapM_name (members : List (Option String × Json)) :
    members.mapM (fun (name, value) => name.map fun name => (name, value)) =
      if members.all (·.1.isSome) then some (properMembers members) else none := by
  induction members with
  | nil => rfl
  | cons first others ih =>
      obtain ⟨name, value⟩ := first
      rw [List.mapM_cons, ih]
      cases name with
      | none => rfl
      | some name => cases hall : others.all (·.1.isSome) <;> simp [properMembers, hall]

/-- The proper members of an object that a record knows. -/
def membersKnown (names : List String) (members : List (Option String × Json)) :
    List (String × Json) :=
  (properMembers members).filter fun (name, _) => names.contains name

theorem membersKnown_append (names : List String) (before after : List (Option String × Json)) :
    membersKnown names (before ++ after) =
      membersKnown names before ++ membersKnown names after := by
  simp only [membersKnown, properMembers, List.filterMap_append, List.filter_append]

theorem membersKnown_singleton (names : List String) (name : String) (value : Json) :
    membersKnown names [(some name, value)] =
      if names.contains name then [(name, value)] else [] := by
  simp only [membersKnown, properMembers, List.filterMap_cons, Option.map_some,
    List.filterMap_nil, List.filter_cons, List.filter_nil]

/-- The fields that a record takes from an object. -/
theorem takeFields_object (names : List String) (place : Place)
    (members : List (Option String × Json)) :
    takeFields names place (.object members) =
      if members.all (·.1.isSome) ∧ 0 < place.levels ∧
          ((membersKnown names members).map Prod.fst).Nodup then
        some ⟨membersKnown names members, place.inner⟩
      else none := by
  rw [takeFields, knownMembers, mapM_name]
  by_cases hall : members.all (·.1.isSome) = true
  · rw [if_pos hall]
    simp only [hall, true_and]
    rfl
  · rw [if_neg hall, if_neg fun h => hall h.1]
    rfl

theorem takeFields_members {members shuffled : List (Option String × Json)}
    (hperm : members.Perm shuffled) (names : List String) (place : Place) :
    Option.Rel Fields.Agree (takeFields names place (.object members))
      (takeFields names place (.object shuffled)) := by
  have hknown : (membersKnown names members).Perm (membersKnown names shuffled) :=
    (hperm.filterMap _).filter _
  have hnodup := (hknown.map Prod.fst).nodup_iff
  simp only [takeFields_object, hperm.all_eq, hnodup]
  split_ifs with h
  · refine .some ⟨rfl, fun name => ?_⟩
    dsimp only
    rw [lookup_eq_of_perm hknown (hnodup.mpr h.2.2)]
    exact rel_refl _
  · exact .none

theorem takeFields_inMember {value other : Json} (hvalue : Reordered value other)
    (before : List (Option String × Json)) (name : Option String)
    (after : List (Option String × Json)) (names : List String) (place : Place) :
    Option.Rel Fields.Agree (takeFields names place (.object (before ++ (name, value) :: after)))
      (takeFields names place (.object (before ++ (name, other) :: after))) := by
  have hknown : ∀ value, membersKnown names (before ++ (name, value) :: after) =
      membersKnown names before ++ (membersKnown names [(name, value)] ++
        membersKnown names after) := by
    intro value
    rw [← membersKnown_append, ← membersKnown_append, List.singleton_append]
  have hnames : (membersKnown names [(name, value)]).map Prod.fst =
      (membersKnown names [(name, other)]).map Prod.fst := by
    cases name with
    | none => rfl
    | some name =>
        rw [membersKnown_singleton, membersKnown_singleton]
        split_ifs <;> rfl
  simp only [takeFields_object, hknown, List.all_append, List.all_cons, List.map_append, hnames]
  split_ifs with h
  · refine .some ⟨rfl, fun wanted => ?_⟩
    dsimp only
    cases name with
    | none => exact rel_refl _
    | some name =>
        rw [membersKnown_singleton, membersKnown_singleton]
        split_ifs with hcontains
        · exact lookup_replaced hvalue wanted name _ _
        · exact rel_refl _
  · exact .none

/-- One of the items of an array is a field of its own, unless there are too many. -/
theorem zip_cases (names : List String) (before after : List Json) :
    (∀ item other : Json, names.zip (before ++ item :: after) =
        names.zip (before ++ other :: after)) ∨
      ∃ front name back, ∀ item : Json,
        names.zip (before ++ item :: after) = front ++ (name, item) :: back := by
  induction before generalizing names with
  | nil =>
      cases names with
      | nil => exact .inl fun _ _ => rfl
      | cons name names => exact .inr ⟨[], name, names.zip after, fun _ => rfl⟩
  | cons first before ih =>
      cases names with
      | nil => exact .inl fun _ _ => rfl
      | cons name names =>
          rcases ih names with hsame | ⟨front, wanted, back, hzip⟩
          · exact .inl fun item other => congrArg ((name, first) :: ·) (hsame item other)
          · exact .inr ⟨(name, first) :: front, wanted, back, fun item =>
              congrArg ((name, first) :: ·) (hzip item)⟩

theorem takeFields_inItem {item other : Json} (hitem : Reordered item other)
    (before after : List Json) (names : List String) (place : Place) :
    Option.Rel Fields.Agree (takeFields names place (.array (before ++ item :: after)))
      (takeFields names place (.array (before ++ other :: after))) := by
  simp only [takeFields, List.length_append, List.length_cons]
  split_ifs with h
  · refine .some ⟨rfl, fun wanted => ?_⟩
    rcases zip_cases names before after with hsame | ⟨front, name, back, hzip⟩
    · rw [hsame item other]
      exact rel_refl _
    · rw [hzip item, hzip other]
      exact lookup_replaced hitem wanted name front back
  · exact .none

/-- A record is made of its fields, wherever they stand. -/
theorem decodeRecord_ignoresOrder {names : List String} {make : Fields → Option α}
    (hmake : ∀ {fields others : Fields}, fields.Agree others → make fields = make others) :
    (decodeRecord names make).IgnoresOrder := by
  have hrel : ∀ {found foundOther : Option Fields}, Option.Rel Fields.Agree found foundOther →
      found.bind make = foundOther.bind make := by
    rintro _ _ (⟨hagree⟩ | _)
    · exact hmake hagree
    · rfl
  exact ignoresOrder_of_steps
    (fun place _ _ hperm => hrel (takeFields_members hperm names place))
    (fun place _ _ before after hitem => hrel (takeFields_inItem hitem before after names place))
    (fun place _ _ before name after hvalue =>
      hrel (takeFields_inMember hvalue before name after names place))

end Records

/-! ### Tagged unions -/

section Unions

variable {α : Type} {tag : String} {variants : List (String × Decoder α)}

/-- The tag and the rest of a union, up to the order of members. -/
def SplitAlike (found other : Json × Json) : Prop :=
  Reordered found.1 other.1 ∧ Reordered found.2 other.2

theorem variantOf_ignoresOrder : Decoder.IgnoresOrder (variantOf variants) :=
  ignoresOrder_of_flat (fun _ _ => rfl) fun _ _ => rfl

theorem mem_of_variantOf {place : Place} {name : Json} {decode : Decoder α}
    (hvariant : variantOf variants place name = some decode) :
    ∃ name, (name, decode) ∈ variants := by
  unfold variantOf at hvariant
  split at hvariant
  · rename_i name
    obtain ⟨front, back, rfl, -⟩ := List.lookup_eq_some_iff.mp hvariant
    exact ⟨name, by simp⟩
  · split_ifs at hvariant
    obtain ⟨⟨name, _⟩, hget, rfl⟩ := Option.map_eq_some_iff.mp hvariant
    exact ⟨name, List.mem_of_getElem? hget⟩
  · nomatch hvariant

theorem splitTag_eq_none {members : List (Option String × Json)}
    (hlength : (members.filter (·.1 = some tag)).length ≠ 1) :
    splitTag tag (.object members) = none := by
  simp only [splitTag]
  split
  · rename_i heq
    rw [heq] at hlength
    exact absurd rfl hlength
  · rfl

theorem splitTag_eq_some {members : List (Option String × Json)} {name : Option String}
    {value : Json} (hfilter : members.filter (·.1 = some tag) = [(name, value)]) :
    splitTag tag (.object members) =
      some (value, .object (members.filter (·.1 ≠ some tag))) := by
  simp only [splitTag, hfilter]

theorem splitTag_members {members shuffled : List (Option String × Json)}
    (hperm : members.Perm shuffled) :
    Option.Rel SplitAlike (splitTag tag (.object members)) (splitTag tag (.object shuffled)) := by
  have hfilter := hperm.filter (·.1 = some tag)
  by_cases hlength : (members.filter (·.1 = some tag)).length = 1
  · obtain ⟨member, hmember⟩ := List.length_eq_one_iff.mp hlength
    rw [splitTag_eq_some hmember,
      splitTag_eq_some (List.perm_singleton.mp (hmember ▸ hfilter).symm)]
    exact .some ⟨.refl _, .members (hperm.filter _)⟩
  · rw [splitTag_eq_none hlength, splitTag_eq_none (hfilter.length_eq ▸ hlength)]
    exact .none

theorem splitTag_inMember {value other : Json} (hvalue : Reordered value other)
    (before : List (Option String × Json)) (name : Option String)
    (after : List (Option String × Json)) :
    Option.Rel SplitAlike (splitTag tag (.object (before ++ (name, value) :: after)))
      (splitTag tag (.object (before ++ (name, other) :: after))) := by
  by_cases htag : name = some tag
  -- the tag itself, which is the only one if nothing else has its name
  · have hfilter : ∀ value, (before ++ (name, value) :: after).filter (·.1 = some tag) =
        before.filter (·.1 = some tag) ++ (name, value) :: after.filter (·.1 = some tag) := by
      simp [htag]
    have hrest : ∀ value, (before ++ (name, value) :: after).filter (·.1 ≠ some tag) =
        before.filter (·.1 ≠ some tag) ++ after.filter (·.1 ≠ some tag) := by
      simp [htag]
    cases hbefore : before.filter (·.1 = some tag) <;> cases hafter : after.filter (·.1 = some tag)
    · have honly : ∀ value, (before ++ (name, value) :: after).filter (·.1 = some tag) =
          [(name, value)] := fun value => by rw [hfilter, hbefore, hafter, List.nil_append]
      rw [splitTag_eq_some (honly value), splitTag_eq_some (honly other), hrest, hrest]
      exact .some ⟨hvalue, .refl _⟩
    all_goals
      have hmore : ∀ value,
          ((before ++ (name, value) :: after).filter (·.1 = some tag)).length ≠ 1 := fun value => by
        simp [hfilter, hbefore, hafter]
      rw [splitTag_eq_none (hmore value), splitTag_eq_none (hmore other)]
      exact .none
  · have hfilter : ∀ value, (before ++ (name, value) :: after).filter (·.1 = some tag) =
        (before ++ after).filter (·.1 = some tag) := by
      simp [htag]
    have hrest : ∀ value, (before ++ (name, value) :: after).filter (·.1 ≠ some tag) =
        before.filter (·.1 ≠ some tag) ++ (name, value) :: after.filter (·.1 ≠ some tag) := by
      simp [htag]
    by_cases hlength : ((before ++ after).filter (·.1 = some tag)).length = 1
    · obtain ⟨member, hmember⟩ := List.length_eq_one_iff.mp hlength
      rw [splitTag_eq_some ((hfilter value).trans hmember),
        splitTag_eq_some ((hfilter other).trans hmember), hrest, hrest]
      exact .some ⟨.refl _, .inMember _ name _ hvalue⟩
    · rw [splitTag_eq_none (hfilter value ▸ hlength), splitTag_eq_none (hfilter other ▸ hlength)]
      exact .none

theorem splitTag_inItem {item other : Json} (hitem : Reordered item other)
    (before after : List Json) :
    Option.Rel SplitAlike (splitTag tag (.array (before ++ item :: after)))
      (splitTag tag (.array (before ++ other :: after))) := by
  cases before with
  | nil => exact .some ⟨hitem, .refl _⟩
  | cons first before => exact .some ⟨.refl _, .inItem before after hitem⟩

/-- A union is read by its tag, wherever this stands. -/
theorem decodeTagged_ignoresOrder
    (hvariants : ∀ variant ∈ variants, Decoder.IgnoresOrder variant.2) :
    (decodeTagged tag variants).IgnoresOrder := by
  have hrel : ∀ place {json other : Json}, Reordered json other →
      Option.Rel SplitAlike (splitTag tag json) (splitTag tag other) →
        decodeTagged tag variants place json = decodeTagged tag variants place other := by
    intro place json other h hsplit
    unfold decodeTagged
    rw [h.isSound_eq]
    generalize splitTag tag json = found at hsplit ⊢
    generalize splitTag tag other = foundOther at hsplit ⊢
    cases hsplit with
    | none => rfl
    | @some found foundOther halike =>
        obtain ⟨name, rest⟩ := found
        obtain ⟨otherName, otherRest⟩ := foundOther
        simp only [Option.bind_eq_bind, Option.bind_some, variantOf_ignoresOrder place halike.1]
        cases hvariant : variantOf variants place otherName with
        | none => rfl
        | some decode =>
            obtain ⟨variant, hmem⟩ := mem_of_variantOf hvariant
            have hrest : decode { place with inUnion := true } rest =
                decode { place with inUnion := true } otherRest := hvariants _ hmem _ halike.2
            simp only [Option.bind_some, hrest]
  exact ignoresOrder_of_steps
    (fun place _ _ hperm => hrel place (.members hperm) (splitTag_members hperm))
    (fun place _ _ before after hitem =>
      hrel place (.inItem before after hitem) (splitTag_inItem hitem before after))
    (fun place _ _ before name after hvalue =>
      hrel place (.inMember before name after hvalue) (splitTag_inMember hvalue before name after))

end Unions

end Json

end GateBench
