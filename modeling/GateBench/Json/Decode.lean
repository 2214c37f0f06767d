import GateBench.Json.Basic

/-!
Decoding JSON into typed values.  A record is an object with its fields in any order, each at most
once, or an array of its fields in order.  Members that a record does not know are passed over,
whatever they hold.  A tagged union is read as a whole before its tag is known, so all of it has to
be sound.
-/

namespace GateBench.Json

/-- Where a value stands: how many levels may still open, and whether it is part of a tagged
union. -/
structure Place where
  levels : Nat
  inUnion : Bool
deriving DecidableEq, Repr

/-- The place of a whole text. -/
def Place.outermost : Place :=
  ⟨127, false⟩

/-- The place one level further in. -/
def Place.inner (place : Place) : Place :=
  { place with levels := place.levels - 1 }

/-- A way to decode values. -/
abbrev Decoder (α : Type) := Place → Json → Option α

/-- A proper string. -/
def decodeText : Decoder String
  | _, .string text => text
  | _, _ => none

/-- A truth value. -/
def decodeBool : Decoder Bool
  | _, .bool value => some value
  | _, _ => none

/-- An unsigned whole number below a bound. -/
def decodeBelow (bound : Nat) : Decoder Nat
  | _, .number (.natural value) => if value < bound then some value else none
  | _, _ => none

/-- A number of sixty-four bits. -/
def decodeWord : Decoder Nat :=
  decodeBelow UInt64.size

/-- An array of values. -/
def decodeList {α : Type} (item : Decoder α) : Decoder (List α)
  | place, .array items => if place.levels = 0 then none else items.mapM (item place.inner)
  | _, _ => none

/-- A value, or none for `null`. -/
def decodeOptional {α : Type} (value : Decoder α) : Decoder (Option α)
  | _, .null => some none
  | place, json => (value place json).map some

/-- One of a list of names: the name itself, or an object that gives it no content. -/
def decodeChoice {α : Type} (choices : List (String × α)) : Decoder α
  | _, .string (some name) => choices.lookup name
  | place, .object [(some name, content)] =>
    match content with
    | .null => if place.levels = 0 then none else choices.lookup name
    | .object [] => if place.inUnion then choices.lookup name else none
    | _ => none
  | _, _ => none

/-- The fields of a record by name, and the place of their values. -/
structure Fields where
  values : List (String × Json)
  place : Place

/-- The members of an object that a record knows; none if a name is improper. -/
def knownMembers (names : List String) (members : List (Option String × Json)) :
    Option (List (String × Json)) := do
  let named ← members.mapM fun (name, value) => name.map fun name => (name, value)
  return named.filter fun (name, _) => names.contains name

/-- Take the fields of a record out of an object or an array. -/
def takeFields (names : List String) (place : Place) : Json → Option Fields
  | .object members => do
    let known ← knownMembers names members
    if 0 < place.levels ∧ (known.map Prod.fst).Nodup then some ⟨known, place.inner⟩ else none
  | .array items =>
    if 0 < place.levels ∧ items.length ≤ names.length then some ⟨names.zip items, place.inner⟩
    else none
  | _ => none

/-- A field that must be there. -/
def Fields.required {α : Type} (fields : Fields) (name : String) (value : Decoder α) :
    Option α := do
  value fields.place (← fields.values.lookup name)

/-- A field with a default. -/
def Fields.withDefault {α : Type} (fields : Fields) (name : String) (default : α)
    (value : Decoder α) : Option α :=
  match fields.values.lookup name with
  | none => some default
  | some json => value fields.place json

/-- A field that may be missing or `null`. -/
def Fields.optional {α : Type} (fields : Fields) (name : String) (value : Decoder α) :
    Option (Option α) :=
  fields.withDefault name none (decodeOptional value)

/-- Split a tagged union into its tag and the rest: the other members of an object, or the items of
an array behind its first. -/
def splitTag (tag : String) : Json → Option (Json × Json)
  | .object members =>
    match members.filter (·.1 = some tag) with
    | [(_, value)] => some (value, .object (members.filter (·.1 ≠ some tag)))
    | _ => none
  | .array (value :: items) => some (value, .array items)
  | _ => none

/-- The variant that a tag names.  Within another tagged union the number of a variant will do. -/
def variantOf {α : Type} (variants : List (String × α)) (place : Place) : Json → Option α
  | .string (some name) => variants.lookup name
  | .number (.natural position) =>
    if place.inUnion then variants[position]?.map Prod.snd else none
  | _ => none

/-- Decode a tagged union, given for every variant its name, its fields and how they make a
value. -/
def decodeTagged {α : Type} (tag : String)
    (variants : List (String × (Place → Json → Option α))) : Decoder α := fun place json => do
  if json.isSound place.levels then
    let (name, rest) ← splitTag tag json
    let decode ← variantOf variants place name
    decode { place with inUnion := true } rest
  else none

/-- A variant that is a record. -/
def decodeRecord {α : Type} (names : List String) (make : Fields → Option α) : Decoder α :=
  fun place json => do make (← takeFields names place json)

/-- A member that is left out when there is no value. -/
def optionalMember {α : Type} (name : String) (encode : α → Json) :
    Option α → List (String × Json)
  | some value => [(name, encode value)]
  | none => []

/-- A member that is left out when its list is empty. -/
def listMember {α : Type} (name : String) (encode : α → Json) (items : List α) :
    List (String × Json) :=
  if items.isEmpty then [] else [(name, .array (items.map encode))]

end GateBench.Json
