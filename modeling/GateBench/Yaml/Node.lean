import GateBench.Yaml.Token

/-!
The document that a text in the YAML format holds: scalars, sequences and mappings, and aliases of
nodes that carry an anchor.
-/

namespace GateBench.Yaml

/-- A node.  Tags are written out in full; an alias tells the number of the anchor it means. -/
inductive Node where
  | scalar (text : String) (style : ScalarStyle) (tag : Option String)
  | sequence (items : List Node) (tag : Option String)
  | mapping (entries : List (Node × Node)) (tag : Option String)
  | alias (anchor : Nat)

/-- The node where nothing is written. -/
def Node.empty : Node :=
  .scalar "" .plain none

/-- A document: its root, and the nodes that carry anchors by the anchors' numbers. -/
structure Document where
  root : Node
  anchored : List (Nat × Node) := []

/-- What the directives of a document and the nodes before a place tell: what the handles of tags
stand for, the numbers of the anchors by name, latest first, and the nodes that carry them. -/
structure Surroundings where
  handles : List (String × String)
  anchors : List (String × Nat) := []
  anchored : List (Nat × Node) := []

/-- Something taken from the front of a list of tokens, and what is known and left behind it. -/
structure Parsed (α : Type) where
  value : α
  surroundings : Surroundings
  rest : List Token

/-- Make something else of what was taken. -/
def Parsed.map {α β : Type} (f : α → β) (parsed : Parsed α) : Parsed β :=
  { parsed with value := f parsed.value }

/-- What may stand in front of a node: an anchor and a tag. -/
structure Properties where
  anchor : Option String := none
  tag : Option (String × String) := none

/-- Take the properties of a node. -/
def takeProperties : List Token → Properties × List Token
  | .anchor name :: .tag handle suffix :: rest => (⟨some name, some (handle, suffix)⟩, rest)
  | .tag handle suffix :: .anchor name :: rest => (⟨some name, some (handle, suffix)⟩, rest)
  | .anchor name :: rest => (⟨some name, none⟩, rest)
  | .tag handle suffix :: rest => (⟨none, some (handle, suffix)⟩, rest)
  | tokens => ({}, tokens)

/-- A tag written out in full.  A tag without a handle is so already. -/
def fullTag? (handles : List (String × String)) (tag : String × String) : Option String :=
  if tag.1 = "" then some tag.2 else (handles.lookup tag.1).map (· ++ tag.2)

/-- Give a name to the node that begins here. -/
def Surroundings.declare (surroundings : Surroundings) : Option String → Surroundings
  | none => surroundings
  | some name =>
    { surroundings with anchors := (name, surroundings.anchors.length) :: surroundings.anchors }

/-- Keep a node that carries the anchor that `before` would number next. -/
def Parsed.keep (parsed : Parsed Node) (before : Surroundings) : Option String → Parsed Node
  | none => parsed
  | some _ =>
    let anchored := (before.anchors.length, parsed.value) :: parsed.surroundings.anchored
    { parsed with surroundings := { parsed.surroundings with anchored } }

/-- Whether a token ends an entry of a block sequence before its content. -/
def endsItem : Token → Bool
  | .entry | .blockEnd => true
  | _ => false

/-- Whether a token ends a key or a value of a block mapping before its content. -/
def endsMember : Token → Bool
  | .key | .value | .blockEnd => true
  | _ => false

/-- Whether a token ends a value in a flow collection before its content. -/
def endsFlowValue : Token → Bool
  | .separator | .flowSequenceEnd | .flowMappingEnd => true
  | _ => false

/-- Whether a token ends a key in a flow collection before its content. -/
def endsFlowKey (token : Token) : Bool :=
  token = .value || endsFlowValue token

theorem length_takeProperties_le (tokens : List Token) :
    (takeProperties tokens).2.length ≤ tokens.length := by
  unfold takeProperties
  split <;> simp <;> omega

mutual

/-- Take a node.  Within brackets no collection is told by indentation; the entries of a sequence
that is a member of a block mapping need no indentation of their own.  Behind properties the content
may be missing. -/
def takeNode (isBlock isMember : Bool) (surroundings : Surroundings) (tokens : List Token) :
    Option (Parsed Node) := do
  let properties := (takeProperties tokens).1
  let tag ← properties.tag.mapM (fullTag? surroundings.handles)
  let inner := surroundings.declare properties.anchor
  let isBare := properties.anchor = none && tag = none
  let node : Parsed Node ← match _h : (takeProperties tokens).2, isBlock, isMember, isBare with
    | .alias name :: rest, _, _, true => do
      some ⟨.alias (← inner.anchors.lookup name), inner, rest⟩
    | .scalar text style :: rest, _, _, _ => some ⟨.scalar text style tag, inner, rest⟩
    | .flowSequence :: rest, _, _, _ =>
      (takeFlowItems true inner rest).map (·.map (.sequence · tag))
    | .flowMapping :: rest, _, _, _ =>
      (takeFlowMembers true inner rest).map (·.map (.mapping · tag))
    | .blockSequence :: rest, true, _, _ => (takeItems inner rest).map (·.map (.sequence · tag))
    | .blockMapping :: rest, true, _, _ => (takeMembers inner rest).map (·.map (.mapping · tag))
    | .entry :: rest, _, true, _ => (takeLooseItems inner rest).map (·.map (.sequence · tag))
    | rest, _, _, false => some ⟨.scalar "" .plain tag, inner, rest⟩
    | _, _, _, true => none
  return node.keep surroundings properties.anchor
termination_by (tokens.length, 0)
decreasing_by
  all_goals
    apply Prod.Lex.left
    have := length_takeProperties_le tokens
    rw [_h] at this
    simp at this
    omega

/-- Take the content of an entry, which may be missing. -/
def takeContent (ends : Token → Bool) (isBlock isMember : Bool) (surroundings : Surroundings)
    (tokens : List Token) : Option (Parsed Node) :=
  if tokens.head?.any ends then some ⟨.empty, surroundings, tokens⟩
  else takeNode isBlock isMember surroundings tokens
termination_by (tokens.length, 1)

/-- Take the value behind a key, which may be missing with its colon. -/
def takeValue (ends : Token → Bool) (isBlock : Bool) (surroundings : Surroundings)
    (tokens : List Token) : Option (Parsed Node) :=
  match tokens with
  | .value :: rest => takeContent ends isBlock isBlock surroundings rest
  | rest => some ⟨.empty, surroundings, rest⟩
termination_by (tokens.length, 0)

/-- Take the items of a block sequence, up to its end. -/
def takeItems (surroundings : Surroundings) (tokens : List Token) :
    Option (Parsed (List Node)) :=
  match tokens with
  | .entry :: rest => do
    let item ← takeContent endsItem true false surroundings rest
    if item.rest.length < (Token.entry :: rest).length then
      let others ← takeItems item.surroundings item.rest
      return others.map (item.value :: ·)
    else none
  | .blockEnd :: rest => some ⟨[], surroundings, rest⟩
  | _ => none
termination_by (tokens.length, 0)

/-- Take an item behind its dash and those after it, of a sequence without an indentation of its
own. -/
def takeLooseItems (surroundings : Surroundings) (tokens : List Token) :
    Option (Parsed (List Node)) := do
  let ends (token : Token) := token = .entry || endsMember token
  let item ← takeContent ends true false surroundings tokens
  match item.rest with
  | .entry :: rest =>
    if rest.length < tokens.length then
      let others ← takeLooseItems item.surroundings rest
      return others.map (item.value :: ·)
    else none
  | rest => return ⟨[item.value], item.surroundings, rest⟩
termination_by (tokens.length, 2)

/-- Take the members of a block mapping, up to its end. -/
def takeMembers (surroundings : Surroundings) (tokens : List Token) :
    Option (Parsed (List (Node × Node))) :=
  match tokens with
  | .key :: rest => do
    let key ← takeContent endsMember true true surroundings rest
    if key.rest.length < (Token.key :: rest).length then
      let value ← takeValue endsMember true key.surroundings key.rest
      if value.rest.length < (Token.key :: rest).length then
        let others ← takeMembers value.surroundings value.rest
        return others.map ((key.value, value.value) :: ·)
      else none
    else none
  | .blockEnd :: rest => some ⟨[], surroundings, rest⟩
  | _ => none
termination_by (tokens.length, 0)

/-- Take a key behind its mark and its value, within brackets.  Where the key is missing in a
sequence, the token behind its mark is passed over. -/
def takeFlowPair (inSequence : Bool) (surroundings : Surroundings) (tokens : List Token) :
    Option (Parsed (Node × Node)) :=
  match tokens with
  | .key :: rest => do
    let key ←
      if rest.head?.any endsFlowKey then
        some ⟨.empty, surroundings, if inSequence then rest.drop 1 else rest⟩
      else takeNode false false surroundings rest
    if key.rest.length < (Token.key :: rest).length then
      let value ← takeValue endsFlowValue false key.surroundings key.rest
      return value.map (key.value, ·)
    else none
  | _ => none
termination_by (tokens.length, 1)

/-- Take an item of a flow sequence and those after it.  An item may be a mapping of one member
without brackets. -/
def takeFlowItem (surroundings : Surroundings) (tokens : List Token) :
    Option (Parsed (List Node)) := do
  let item : Parsed Node ←
    if tokens.head? = some .key then
      (takeFlowPair true surroundings tokens).map (·.map fun pair => .mapping [pair] none)
    else takeNode false false surroundings tokens
  if item.rest.length < tokens.length then
    let others ← takeFlowItems false item.surroundings item.rest
    return others.map (item.value :: ·)
  else none
termination_by (tokens.length, 2)

/-- Take the items of a flow sequence, up to its end. -/
def takeFlowItems (isFirst : Bool) (surroundings : Surroundings) (tokens : List Token) :
    Option (Parsed (List Node)) :=
  match isFirst, tokens with
  | _, .flowSequenceEnd :: rest => some ⟨[], surroundings, rest⟩
  | false, .separator :: .flowSequenceEnd :: rest => some ⟨[], surroundings, rest⟩
  | false, .separator :: rest => takeFlowItem surroundings rest
  | true, tokens => takeFlowItem surroundings tokens
  | _, _ => none
termination_by (tokens.length, 3)

/-- Take a member of a flow mapping and those after it.  Without the mark of a key it has no
value. -/
def takeFlowMember (surroundings : Surroundings) (tokens : List Token) :
    Option (Parsed (List (Node × Node))) := do
  let pair : Parsed (Node × Node) ←
    if tokens.head? = some .key then takeFlowPair false surroundings tokens
    else (takeNode false false surroundings tokens).map (·.map (·, .empty))
  if pair.rest.length < tokens.length then
    let others ← takeFlowMembers false pair.surroundings pair.rest
    return others.map (pair.value :: ·)
  else none
termination_by (tokens.length, 2)

/-- Take the members of a flow mapping, up to its end. -/
def takeFlowMembers (isFirst : Bool) (surroundings : Surroundings) (tokens : List Token) :
    Option (Parsed (List (Node × Node))) :=
  match isFirst, tokens with
  | _, .flowMappingEnd :: rest => some ⟨[], surroundings, rest⟩
  | false, .separator :: .flowMappingEnd :: rest => some ⟨[], surroundings, rest⟩
  | false, .separator :: rest => takeFlowMember surroundings rest
  | true, tokens => takeFlowMember surroundings tokens
  | _, _ => none
termination_by (tokens.length, 3)

end

/-- Whether a token is a directive. -/
def Token.isDirective : Token → Bool
  | .version .. | .tagHandle .. => true
  | _ => false

/-- What the handles of tags stand for after some directives.  The version may be told once and must
be 1.1 or 1.2; a handle may be told once. -/
def handlesOf? (directives : List Token) : Option (List (String × String)) :=
  let versions := directives.filterMap fun
    | .version major minor => some (major, minor)
    | _ => none
  let handles := directives.filterMap fun
    | .tagHandle handle expansion => some (handle, expansion)
    | _ => none
  if versions.length ≤ 1 ∧ versions.all [(1, 1), (1, 2)].contains ∧
      (handles.map Prod.fst).Nodup then
    some (handles ++ [("!", "!"), ("!!", "tag:yaml.org,2002:")])
  else none

/-- Whether a token cannot be the start of a document's content. -/
def endsDocument (token : Token) : Bool :=
  token.isDirective || token = .documentStart || token = .documentEnd

/-- Take the content of a document.  Only one that was begun by its mark may be empty. -/
def takeRoot (handles : List (String × String)) (isMarked : Bool) (tokens : List Token) :
    Option (Parsed Node) :=
  if isMarked ∧ tokens.head?.all endsDocument then some ⟨.empty, ⟨handles, [], []⟩, tokens⟩
  else takeNode true false ⟨handles, [], []⟩ tokens

/-- The only document of a text; an empty one if there is none.  A text of several documents has
none. -/
def read? (text : String) : Option Document := do
  let tokens ← tokens? text
  if tokens = [] then return { root := .empty }
  let directives := tokens.takeWhile Token.isDirective
  let handles ← handlesOf? directives
  let root ← match tokens.drop directives.length with
    | .documentStart :: rest => takeRoot handles true rest
    | rest => if directives = [] then takeRoot handles false rest else none
  if root.rest.all (· = .documentEnd) then
    return ⟨root.value, root.surroundings.anchored⟩
  else none

end GateBench.Yaml
