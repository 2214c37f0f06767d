import GateBench.Yaml.Node
import GateBench.Yaml.Plain

/-!
Decoding documents into typed values.  A record is a mapping with its fields in any order, each at
most once, or nothing at all; members it does not know are passed over, whatever they hold.
-/

namespace GateBench.Yaml.Document

/-- The node that an alias means; any other node means itself. -/
def follow (document : Document) : Node → Option Node
  | .alias anchor => document.anchored.lookup anchor
  | node => some node

/-- The text of a scalar, however it is spelled. -/
def text? (document : Document) (node : Node) : Option String := do
  match ← document.follow node with
  | .scalar text _ _ => return text
  | _ => none

/-- A whole number below a bound, which must be plain.  A literal block will do if it is tagged as a
whole number. -/
def number? (document : Document) (bound : Nat) (node : Node) : Option Nat := do
  match ← document.follow node with
  | .scalar text style tag =>
    let isPlain := style = .plain || (style = .literal && tag = some "tag:yaml.org,2002:int")
    if isPlain then (wholeNumber? text).filter (· < bound) else none
  | _ => none

/-- A text that may be nothing: a plain word for nothing, or a plain scalar without characters and
without a tag. -/
def optionalText? (document : Document) (node : Node) : Option (Option String) := do
  match ← document.follow node with
  | .scalar text .plain none => return if text = "" ∨ text ∈ nullWords then none else some text
  | .scalar text .plain (some "tag:yaml.org,2002:null") =>
    if text ∈ nullWords then return none else none
  | .scalar text _ _ => return some text
  | _ => none

/-- The name in a tag that is no full one. -/
def localTag? (tag : Option String) : Option String := do
  match (← tag).toList with
  | ['!'] => return "!"
  | '!' :: name => return String.ofList name
  | _ => none

/-- One of a list of names: the text of a scalar, or the tag of a plain scalar that stands for
nothing. -/
def choice? {α : Type} (document : Document) (choices : List (String × α)) (node : Node) :
    Option α := do
  match ← document.follow node with
  | .scalar text style tag =>
    match localTag? tag with
    | none => choices.lookup text
    | some name =>
      if style = .plain ∧ (text = "" ∨ text ∈ nullWords) then choices.lookup name else none
  | _ => none

/-- The fields of a record by name. -/
structure Fields where
  document : Document
  values : List (String × Node)

/-- Take the fields that a record knows out of a mapping. -/
def fields? (document : Document) (names : List String) (node : Node) : Option Fields := do
  match ← document.follow node with
  | .mapping entries _ =>
    let named ← entries.mapM fun (key, value) => (document.text? key).map fun name => (name, value)
    let known := named.filter fun (name, _) => names.contains name
    if (known.map Prod.fst).Nodup then return ⟨document, known⟩ else none
  | .scalar "" .plain _ => return ⟨document, []⟩
  | _ => none

/-- A field with a default. -/
def Fields.withDefault {α : Type} (fields : Fields) (name : String) (default : α)
    (value : Document → Node → Option α) : Option α :=
  match fields.values.lookup name with
  | none => some default
  | some node => value fields.document node

end GateBench.Yaml.Document
