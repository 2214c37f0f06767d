import GateBench.Json.Decode
import GateBench.Proofs.JsonText

/-!
What decoders make of written values: a decoder carries a value when it takes the written form back
to it, at every place that leaves enough levels of nesting.
-/

namespace GateBench.Json

mutual

/-- How deep arrays and objects nest in a value. -/
def depth : Json → Nat
  | .null => 0
  | .bool _ => 0
  | .number _ => 0
  | .string _ => 0
  | .array items => depthOfAll items + 1
  | .object members => depthOfMembers members + 1

/-- How deep arrays and objects nest in the values of a list. -/
def depthOfAll : List Json → Nat
  | [] => 0
  | first :: others => max first.depth (depthOfAll others)

/-- How deep arrays and objects nest in the values of members. -/
def depthOfMembers : List (Option String × Json) → Nat
  | [] => 0
  | (_, value) :: others => max value.depth (depthOfMembers others)

end

mutual

/-- Whether a value holds only proper strings and finite numbers. -/
def isProper : Json → Bool
  | .null => true
  | .bool _ => true
  | .number value => value.isFinite
  | .string text => text.isSome
  | .array items => allProper items
  | .object members => membersProper members

/-- Whether all values of a list are proper. -/
def allProper : List Json → Bool
  | [] => true
  | first :: others => first.isProper && allProper others

/-- Whether all members of a list are proper, with their names. -/
def membersProper : List (Option String × Json) → Bool
  | [] => true
  | (name, value) :: others => name.isSome && value.isProper && membersProper others

end

/-- Members hold plain values. -/
def PlainMembers (members : List (String × Json)) : Prop :=
  ∀ member ∈ members, member.2.isPlain

/-- A decoder takes a written form to a value, wherever as many levels are left as it nests. -/
structure Carries {α : Type} (decoder : Decoder α) (json : Json) (value : α) : Prop where
  plain : json.isPlain
  decodes : ∀ place : Place, json.depth ≤ place.levels → decoder place json = some value

variable {json : Json} {items : List Json} {members : List (String × Json)} {levels : Nat}

/-! ### Nesting -/

theorem allPlain_iff : allPlain items ↔ ∀ item ∈ items, item.isPlain := by
  induction items with
  | nil => simp [allPlain]
  | cons first others ih => simp [allPlain, ih]

theorem depthOfAll_le_iff : depthOfAll items ≤ levels ↔ ∀ item ∈ items, item.depth ≤ levels := by
  induction items with
  | nil => simp [depthOfAll]
  | cons first others ih => simp only [depthOfAll, Nat.max_le, ih, List.forall_mem_cons]

@[simp] theorem isPlain_array : (Json.array items).isPlain ↔ ∀ item ∈ items, item.isPlain := by
  simp only [isPlain, allPlain_iff]

@[simp] theorem depth_array_le_iff : (Json.array items).depth ≤ levels ↔
    0 < levels ∧ ∀ item ∈ items, item.depth ≤ levels - 1 := by
  rw [← depthOfAll_le_iff, depth]
  omega

@[simp] theorem isPlain_ofMembers :
    (Json.ofMembers members).isPlain ↔ PlainMembers members := by
  simp only [ofMembers, isPlain, PlainMembers]
  induction members with
  | nil => simp [membersPlain]
  | cons first others ih => simp [membersPlain, ih]

/-- Members hold values that nest at most so deep. -/
def MembersWithin (levels : Nat) (members : List (String × Json)) : Prop :=
  ∀ member ∈ members, member.2.depth ≤ levels

@[simp] theorem membersWithin_nil : MembersWithin levels [] := by
  simp [MembersWithin]

@[simp] theorem membersWithin_cons {name : String} :
    MembersWithin levels ((name, json) :: members) ↔
      json.depth ≤ levels ∧ MembersWithin levels members := by
  simp [MembersWithin]

@[simp] theorem membersWithin_append {others : List (String × Json)} :
    MembersWithin levels (members ++ others) ↔
      MembersWithin levels members ∧ MembersWithin levels others :=
  List.forall_mem_append

@[simp] theorem membersWithin_optionalMember {α : Type} {name : String} {encode : α → Json}
    {value : Option α} :
    MembersWithin levels (optionalMember name encode value) ↔
      ∀ inner ∈ value, (encode inner).depth ≤ levels := by
  cases value <;> simp [optionalMember]

@[simp] theorem membersWithin_listMember {α : Type} {name : String} {encode : α → Json}
    {values : List α} :
    MembersWithin levels (listMember name encode values) ↔
      (values ≠ [] → (Json.array (values.map encode)).depth ≤ levels) := by
  cases values <;> simp [listMember]

@[simp] theorem depth_ofMembers_le_iff : (Json.ofMembers members).depth ≤ levels ↔
    0 < levels ∧ MembersWithin (levels - 1) members := by
  have hmembers : ∀ levels, (Json.ofMembers members).depth ≤ levels + 1 ↔
      MembersWithin levels members := by
    intro levels
    simp only [ofMembers, depth, Nat.succ_le_succ_iff, MembersWithin]
    induction members with
    | nil => simp [depthOfMembers]
    | cons first others ih =>
        simp only [List.map_cons, depthOfMembers, Nat.max_le, ih, List.forall_mem_cons]
  cases levels with
  | zero => simp [ofMembers, depth]
  | succ levels => simp [hmembers]

@[simp] theorem plainMembers_nil : PlainMembers [] := by
  simp [PlainMembers]

@[simp] theorem plainMembers_cons {name : String} :
    PlainMembers ((name, json) :: members) ↔ json.isPlain ∧ PlainMembers members := by
  simp [PlainMembers]

@[simp] theorem plainMembers_append {others : List (String × Json)} :
    PlainMembers (members ++ others) ↔ PlainMembers members ∧ PlainMembers others :=
  List.forall_mem_append

@[simp] theorem plainMembers_optionalMember {α : Type} {name : String} {encode : α → Json}
    {value : Option α} :
    PlainMembers (optionalMember name encode value) ↔ ∀ inner ∈ value, (encode inner).isPlain := by
  cases value <;> simp [optionalMember]

@[simp] theorem plainMembers_listMember {α : Type} {name : String} {encode : α → Json}
    {values : List α} :
    PlainMembers (listMember name encode values) ↔ ∀ value ∈ values, (encode value).isPlain := by
  cases values <;> simp [listMember]

@[simp] theorem isPlain_ofString (text : String) : (ofString text).isPlain := rfl

@[simp] theorem depth_ofString (text : String) : (ofString text).depth = 0 := rfl

@[simp] theorem isPlain_ofNat {n : Nat} : (ofNat n).isPlain ↔ n < UInt64.size := by
  simp [ofNat, isPlain]

@[simp] theorem depth_ofNat (n : Nat) : (ofNat n).depth = 0 := rfl

mutual

/-- A value is sound where as many levels are left as it nests, if it is proper. -/
theorem isSound_iff (json : Json) (levels : Nat) :
    json.isSound levels ↔ json.depth ≤ levels ∧ json.isProper := by
  match json with
  | .null => simp [isSound, depth, isProper]
  | .bool _ => simp [isSound, depth, isProper]
  | .number _ => simp [isSound, depth, isProper]
  | .string _ => simp [isSound, depth, isProper]
  | .array items =>
      simp only [isSound, depth, isProper, Bool.and_eq_true, decide_eq_true_eq,
        allSound_iff items (levels - 1), ← and_assoc]
      exact and_congr_left fun _ => by omega
  | .object members =>
      simp only [isSound, depth, isProper, Bool.and_eq_true, decide_eq_true_eq,
        membersSound_iff members (levels - 1), ← and_assoc]
      exact and_congr_left fun _ => by omega

theorem allSound_iff (items : List Json) (levels : Nat) :
    allSound levels items ↔ depthOfAll items ≤ levels ∧ allProper items := by
  match items with
  | [] => simp [allSound, depthOfAll, allProper]
  | first :: others =>
      simp only [allSound, depthOfAll, allProper, Bool.and_eq_true, Nat.max_le,
        isSound_iff first, allSound_iff others]
      exact and_and_and_comm

theorem membersSound_iff (members : List (Option String × Json)) (levels : Nat) :
    membersSound levels members ↔ depthOfMembers members ≤ levels ∧ membersProper members := by
  match members with
  | [] => simp [membersSound, depthOfMembers, membersProper]
  | (name, first) :: others =>
      simp only [membersSound, depthOfMembers, membersProper, Bool.and_eq_true, Nat.max_le,
        isSound_iff first, membersSound_iff others, and_left_comm, and_assoc]

end

mutual

theorem isProper_of_isPlain (json : Json) (hplain : json.isPlain) : json.isProper := by
  match json with
  | .null => rfl
  | .bool _ => rfl
  | .number (.natural _) => rfl
  | .string _ => exact hplain
  | .array items => exact allProper_of_allPlain items hplain
  | .object members => exact membersProper_of_membersPlain members hplain

theorem allProper_of_allPlain (items : List Json) (hplain : allPlain items) : allProper items := by
  match items with
  | [] => rfl
  | first :: others =>
      rw [allPlain, Bool.and_eq_true] at hplain
      rw [allProper, isProper_of_isPlain first hplain.1, allProper_of_allPlain others hplain.2]
      rfl

theorem membersProper_of_membersPlain (members : List (Option String × Json))
    (hplain : membersPlain members) : membersProper members := by
  match members with
  | [] => rfl
  | (name, first) :: others =>
      simp only [membersPlain, Bool.and_eq_true] at hplain
      simp only [membersProper, hplain.1.1, isProper_of_isPlain first hplain.1.2,
        membersProper_of_membersPlain others hplain.2, Bool.and_self]

end

/-- A plain value is sound exactly when it does not nest too deep. -/
theorem isSound_iff_depth_le (json : Json) (hplain : json.isPlain) (levels : Nat) :
    json.isSound levels ↔ json.depth ≤ levels := by
  rw [isSound_iff, and_iff_left (isProper_of_isPlain json hplain)]

/-! ### Simple values -/

theorem carries_text (text : String) : Carries decodeText (ofString text) text :=
  ⟨rfl, fun _ _ => rfl⟩

theorem carries_bool (value : Bool) : Carries decodeBool (.bool value) value :=
  ⟨rfl, fun _ _ => rfl⟩

theorem carries_below {bound n : Nat} (hbound : bound ≤ UInt64.size) (hn : n < bound) :
    Carries (decodeBelow bound) (ofNat n) n :=
  ⟨isPlain_ofNat.mpr (Nat.lt_of_lt_of_le hn hbound), fun _ _ => if_pos hn⟩

theorem carries_halfWord {n : Nat} (hn : n < UInt32.size) :
    Carries (decodeBelow UInt32.size) (ofNat n) n :=
  carries_below (by decide) hn

theorem carries_word {n : Nat} (hn : n < UInt64.size) : Carries decodeWord (ofNat n) n :=
  carries_below (Nat.le_refl _) hn

theorem carries_choice {α : Type} {choices : List (String × α)} {name : String} {value : α}
    (hvalue : choices.lookup name = some value) :
    Carries (decodeChoice choices) (ofString name) value :=
  ⟨rfl, fun _ _ => hvalue⟩

theorem carries_list {α : Type} {item : Decoder α} {encode : α → Json} {values : List α}
    (hvalues : ∀ value ∈ values, Carries item (encode value) value) :
    Carries (decodeList item) (.array (values.map encode)) values := by
  refine ⟨by simpa using fun value hvalue => (hvalues value hvalue).plain, fun place hlevels => ?_⟩
  obtain ⟨hpositive, hitems⟩ := depth_array_le_iff.mp hlevels
  simp only [List.forall_mem_map] at hitems
  rw [decodeList, if_neg (by omega)]
  clear hlevels
  induction values with
  | nil => rfl
  | cons first others ih =>
      rw [List.forall_mem_cons] at hvalues hitems
      have hfirst := hvalues.1.decodes place.inner hitems.1
      simp [hfirst, ih hvalues.2 hitems.2]

/-! ### Records -/

@[simp] theorem lookup_member {α : Type} (name other : String) (value : α)
    (members : List (String × α)) :
    ((other, value) :: members).lookup name =
      if name = other then some value else members.lookup name := by
  rw [List.lookup_cons]
  by_cases heq : name = other
  · simp [heq]
  · simp [heq, beq_false_of_ne heq]

@[simp] theorem lookup_optionalMember {α : Type} (name other : String) (encode : α → Json)
    (value : Option α) :
    (optionalMember other encode value).lookup name =
      if name = other then value.map encode else none := by
  cases value <;> simp [optionalMember]

@[simp] theorem lookup_listMember {α : Type} (name other : String) (encode : α → Json)
    (values : List α) :
    (listMember other encode values).lookup name =
      if name = other ∧ values ≠ [] then some (.array (values.map encode)) else none := by
  cases values <;> simp [listMember]

theorem optionalMember_names {α : Type} (name : String) (encode : α → Json) (value : Option α) :
    ((optionalMember name encode value).map Prod.fst).Sublist [name] := by
  cases value <;> simp [optionalMember]

theorem listMember_names {α : Type} (name : String) (encode : α → Json) (values : List α) :
    ((listMember name encode values).map Prod.fst).Sublist [name] := by
  cases values <;> simp [listMember]

theorem ofMembers_eq (members : List (String × Json)) :
    Json.ofMembers members = .object (members.map (Prod.map some id)) :=
  rfl

/-- Known members are all kept. -/
theorem knownMembers_ofMembers {names : List String}
    (hmembers : ∀ member ∈ members, member.1 ∈ names) :
    knownMembers names (members.map (Prod.map some id)) = some members := by
  have hnamed : (members.map (Prod.map some id)).mapM
      (fun member : Option String × Json => member.1.map (·, member.2)) = some members := by
    clear hmembers
    induction members with
    | nil => rfl
    | cons first others ih => simp_all
  rw [knownMembers, Option.bind_eq_bind, hnamed, Option.bind_some]
  refine congrArg some (List.filter_eq_self.mpr fun member hmember => ?_)
  simpa using hmembers member hmember

/-- The fields of an object whose members are known fields, each at most once. -/
theorem takeFields_ofMembers {names : List String} (hnames : names.Nodup)
    (hmembers : (members.map Prod.fst).Sublist names) {place : Place} (hlevels : 0 < place.levels) :
    takeFields names place (.ofMembers members) = some ⟨members, place.inner⟩ := by
  have hknown := knownMembers_ofMembers fun member hmember =>
    hmembers.subset (List.mem_map_of_mem hmember)
  simp [takeFields, ofMembers_eq, hknown, hlevels, hmembers.nodup hnames]

/-- A record is carried once its members hold what its fields are made from. -/
theorem carries_record {α : Type} {names : List String} {make : Fields → Option α} {value : α}
    (hnames : names.Nodup) (hmembers : (members.map Prod.fst).Sublist names)
    (hplain : PlainMembers members)
    (hmake : ∀ place : Place, MembersWithin place.levels members →
      make ⟨members, place⟩ = some value) :
    Carries (decodeRecord names make) (.ofMembers members) value := by
  refine ⟨isPlain_ofMembers.mpr hplain, fun place hlevels => ?_⟩
  obtain ⟨hpositive, hvalues⟩ := depth_ofMembers_le_iff.mp hlevels
  rw [decodeRecord, takeFields_ofMembers hnames hmembers hpositive]
  exact hmake place.inner hvalues

section Fields

variable {α : Type} {place : Place} {decoder : Decoder α}

theorem lookup_mem {name : String} {value : Json} (hlookup : members.lookup name = some value) :
    (name, value) ∈ members := by
  induction members with
  | nil => simp at hlookup
  | cons first others ih =>
      obtain ⟨other, held⟩ := first
      rw [List.lookup_cons] at hlookup
      split at hlookup
      · rename_i heq
        cases hlookup
        simp [beq_iff_eq.mp heq]
      · exact List.mem_cons_of_mem _ (ih hlookup)

theorem required_eq (name : String) {value : α} (hlevels : MembersWithin place.levels members)
    (hlookup : members.lookup name = some json) (hcarries : Carries decoder json value) :
    (Fields.mk members place).required name decoder = some value := by
  simp only [Fields.required, hlookup, Option.bind_eq_bind, Option.bind_some]
  exact hcarries.decodes place (hlevels _ (lookup_mem hlookup))

theorem withDefault_eq (name : String) (default : α) {value : α}
    (hlevels : MembersWithin place.levels members)
    (hlookup : members.lookup name = some json) (hcarries : Carries decoder json value) :
    (Fields.mk members place).withDefault name default decoder = some value := by
  simp only [Fields.withDefault, hlookup]
  exact hcarries.decodes place (hlevels _ (lookup_mem hlookup))

theorem optional_eq (name : String) (encode : α → Json) (value : Option α)
    (hlevels : MembersWithin place.levels members)
    (hlookup : members.lookup name = value.map encode)
    (hcarries : ∀ inner ∈ value, Carries decoder (encode inner) inner ∧ encode inner ≠ .null) :
    (Fields.mk members place).optional name decoder = some value := by
  cases value with
  | none => simp [Fields.optional, Fields.withDefault, hlookup]
  | some inner =>
      obtain ⟨hinner, hnull⟩ := hcarries inner rfl
      have hdecoded := hinner.decodes place (hlevels _ (lookup_mem hlookup))
      simp only [Fields.optional, Fields.withDefault, hlookup, Option.map_some]
      unfold decodeOptional
      split
      · rename_i heq
        exact absurd heq hnull
      · simp [hdecoded]

theorem optional_text_eq (name : String) (text : Option String)
    (hlevels : MembersWithin place.levels members)
    (hlookup : members.lookup name = text.map ofString) :
    (Fields.mk members place).optional name decodeText = some text :=
  optional_eq name ofString text hlevels hlookup fun inner _ =>
    ⟨carries_text inner, by simp [ofString]⟩

/-- A list that is left out when it is empty. -/
theorem withDefault_list_eq (name : String) {encode : α → Json} {values : List α}
    (hlevels : MembersWithin place.levels members)
    (hlookup : members.lookup name =
      if values ≠ [] then some (.array (values.map encode)) else none)
    (hcarries : ∀ value ∈ values, Carries decoder (encode value) value) :
    (Fields.mk members place).withDefault name [] (decodeList decoder) = some values := by
  cases values with
  | nil => simp [Fields.withDefault, hlookup]
  | cons first others =>
      exact withDefault_eq name [] hlevels (by simpa using hlookup) (carries_list hcarries)

end Fields

/-! ### Tagged unions -/

theorem splitTag_ofMembers {tag : String} (hmembers : tag ∉ members.map Prod.fst) :
    splitTag tag (.ofMembers ((tag, json) :: members)) = some (json, .ofMembers members) := by
  have hothers : ∀ member ∈ members.map (Prod.map some id), member.1 ≠ some tag := by
    rintro member hmember htag
    obtain ⟨named, hnamed, rfl⟩ := List.mem_map.mp hmember
    exact hmembers (List.mem_map.mpr ⟨named, hnamed, Option.some.inj htag⟩)
  simp only [ofMembers_eq, List.map_cons, splitTag, Prod.map_apply, id_eq]
  generalize members.map (Prod.map some id) = others at hothers ⊢
  have hnone : others.filter (·.1 = some tag) = [] := by simpa using hothers
  simpa [hnone] using fun name value hmember => hothers (name, value) hmember

theorem carries_tagged {α : Type} {tag name : String}
    {variants : List (String × (Place → Json → Option α))} {decode : Decoder α} {value : α}
    (hvariant : variants.lookup name = some decode) (htag : tag ∉ members.map Prod.fst)
    (hmembers : Carries decode (.ofMembers members) value) :
    Carries (decodeTagged tag variants) (.ofMembers ((tag, .ofString name) :: members)) value := by
  have hplain : (Json.ofMembers ((tag, .ofString name) :: members)).isPlain := by
    simpa using isPlain_ofMembers.mp hmembers.plain
  refine ⟨hplain, fun place hlevels => ?_⟩
  have hrest : (Json.ofMembers members).depth ≤ place.levels := by
    simp only [depth_ofMembers_le_iff, membersWithin_cons] at hlevels ⊢
    exact ⟨hlevels.1, hlevels.2.2⟩
  have hsound := (isSound_iff_depth_le _ hplain place.levels).mpr hlevels
  rw [decodeTagged, if_pos hsound, splitTag_ofMembers htag]
  simp [variantOf, ofString, hvariant, hmembers.decodes ⟨place.levels, true⟩ hrest]

/-- A variant that is a record is carried as its record is. -/
theorem carries_variant {α : Type} {tag name : String}
    {variants : List (String × (Place → Json → Option α))} {names : List String}
    {make : Fields → Option α} {value : α}
    (hvariant : variants.lookup name = some (decodeRecord names make))
    (hnames : (tag :: names).Nodup) (hmembers : (members.map Prod.fst).Sublist names)
    (hplain : PlainMembers members)
    (hmake : ∀ place : Place, MembersWithin place.levels members →
      make ⟨members, place⟩ = some value) :
    Carries (decodeTagged tag variants) (.ofMembers ((tag, .ofString name) :: members)) value := by
  obtain ⟨htag, hnames⟩ := List.nodup_cons.mp hnames
  exact carries_tagged hvariant (fun hmem => htag (hmembers.subset hmem))
    (carries_record hnames hmembers hplain hmake)

/-- A tagged union that nests too deep is refused. -/
theorem decodeTagged_eq_none {α : Type} {tag : String}
    {variants : List (String × (Place → Json → Option α))} {place : Place} (hplain : json.isPlain)
    (hlevels : place.levels < json.depth) : decodeTagged tag variants place json = none := by
  have hsound : json.isSound place.levels ≠ true := by
    rw [ne_eq, isSound_iff_depth_le json hplain]
    omega
  simp [decodeTagged, hsound]

end GateBench.Json
