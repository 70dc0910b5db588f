import AsmOrigin.Yaml.Token

/-!
The tree that a YAML text describes, with its anchors and aliases as names.

`ρ` is what a node is referred to by: a name while the tree is built, a number once the names have been
looked up.
-/

namespace AsmOrigin.Yaml

/-- What a node is called besides its content. -/
structure Properties (ρ : Type) where
  anchor : Option ρ
  /-- The full name of the tag. -/
  tag : Option (List Char)

inductive Node (ρ : Type) where
  /-- An alias. -/
  | reference (target : ρ)
  | scalar (props : Properties ρ) (style : Style) (text : List Char)
  | sequence (props : Properties ρ) (items : List (Node ρ))
  | mapping (props : Properties ρ) (entries : List (Node ρ × Node ρ))

/-- Full names of tags by their handles. -/
abbrev Handles := List (List Char × List Char)

/-- The handles that need no directive. -/
def standardHandles : Handles :=
  [(['!'], ['!']), (['!', '!'], "tag:yaml.org,2002:".toList)]

/-- Full name of a tag; its handle must be known. -/
def Tag.resolve? (handles : Handles) (t : Tag) : Option (List Char) :=
  if t.handle.isEmpty then some t.suffix
  else (handles.find? (·.1 = t.handle)).map (·.2 ++ t.suffix)

namespace Node

abbrev Named := Node (List Char)

def unnamed : Properties (List Char) := ⟨none, none⟩

/-- The node that stands where none was written. -/
def absent : Named := scalar unnamed .plain []

/-- Anchor and tag in either order, each at most once. -/
def properties? (handles : Handles) : List Token → Option (Properties (List Char) × List Token)
  | .anchor a :: .tag t :: r => (t.resolve? handles).map fun name => (⟨some a, some name⟩, r)
  | .tag t :: .anchor a :: r => (t.resolve? handles).map fun name => (⟨some a, some name⟩, r)
  | .anchor a :: r => some (⟨some a, none⟩, r)
  | .tag t :: r => (t.resolve? handles).map fun name => (⟨none, some name⟩, r)
  | r => some (unnamed, r)

def endsBlockValue : List Token → Bool
  | .key :: _ => true
  | .value :: _ => true
  | .blockEnd :: _ => true
  | r => r.isEmpty

def endsFlowValue (closing : Token) : List Token → Bool
  | .flowEntry :: _ => true
  | t :: _ => t == closing
  | [] => true

mutual

/-- One node.  Blocks are read only if `inBlock` is set, and a sequence that is not indented only where a
mapping has its keys and values. -/
def ofTokens? (handles : Handles) (inBlock unindented : Bool) :
    Nat → List Token → Option (Named × List Token)
  | 0, _ => none
  | _ + 1, .reference name :: r => some (reference name, r)
  | fuel + 1, ts =>
    match properties? handles ts with
    | none => none
    | some (props, r) =>
      match r with
      | .scalar style text :: s => some (scalar props style text, s)
      | .flowSequenceStart :: s =>
        (flowItems? handles fuel true s).map fun (ns, u) => (sequence props ns, u)
      | .flowMappingStart :: s =>
        (flowEntries? handles fuel true s).map fun (es, u) => (mapping props es, u)
      | .blockEntry :: _ =>
        if unindented then
          (unindentedItems? handles fuel r).map fun (ns, u) => (sequence props ns, u)
        else if props.anchor.isSome || props.tag.isSome then some (scalar props .plain [], r)
        else none
      | .blockSequenceStart :: s =>
        if inBlock then (blockItems? handles fuel s).map fun (ns, u) => (sequence props ns, u)
        else if props.anchor.isSome || props.tag.isSome then some (scalar props .plain [], r)
        else none
      | .blockMappingStart :: s =>
        if inBlock then (blockEntries? handles fuel s).map fun (es, u) => (mapping props es, u)
        else if props.anchor.isSome || props.tag.isSome then some (scalar props .plain [], r)
        else none
      | _ =>
        if props.anchor.isSome || props.tag.isSome then some (scalar props .plain [], r) else none

/-- Items of a block sequence up to its end. -/
def blockItems? (handles : Handles) : Nat → List Token → Option (List Named × List Token)
  | 0, _ => none
  | fuel + 1, .blockEntry :: r =>
    let empty := match r with
      | .blockEntry :: _ => true
      | .blockEnd :: _ => true
      | _ => r.isEmpty
    if empty then (blockItems? handles fuel r).map fun (ns, s) => (absent :: ns, s)
    else
      match ofTokens? handles true false fuel r with
      | none => none
      | some (n, s) => (blockItems? handles fuel s).map fun (ns, u) => (n :: ns, u)
  | _ + 1, .blockEnd :: r => some ([], r)
  | _ + 1, _ => none

/-- Items of a sequence that is not indented; whatever is no item ends it. -/
def unindentedItems? (handles : Handles) : Nat → List Token → Option (List Named × List Token)
  | 0, _ => none
  | fuel + 1, .blockEntry :: r =>
    let empty := match r with
      | .blockEntry :: _ => true
      | _ => endsBlockValue r
    if empty then (unindentedItems? handles fuel r).map fun (ns, s) => (absent :: ns, s)
    else
      match ofTokens? handles true false fuel r with
      | none => none
      | some (n, s) => (unindentedItems? handles fuel s).map fun (ns, u) => (n :: ns, u)
  | _ + 1, r => some ([], r)

/-- Entries of a block mapping up to its end. -/
def blockEntries? (handles : Handles) :
    Nat → List Token → Option (List (Named × Named) × List Token)
  | 0, _ => none
  | fuel + 1, .key :: r =>
    match (if endsBlockValue r then some (absent, r) else ofTokens? handles true true fuel r) with
    | none => none
    | some (k, s) =>
      match blockValue? handles fuel s with
      | none => none
      | some (v, u) => (blockEntries? handles fuel u).map fun (es, w) => ((k, v) :: es, w)
  | _ + 1, .blockEnd :: r => some ([], r)
  | _ + 1, _ => none

/-- Value of a block mapping's entry, perhaps left out. -/
def blockValue? (handles : Handles) : Nat → List Token → Option (Named × List Token)
  | 0, _ => none
  | fuel + 1, .value :: r =>
    if endsBlockValue r then some (absent, r) else ofTokens? handles true true fuel r
  | _ + 1, r => some (absent, r)

/-- Items of a flow sequence up to its closing bracket.  A key makes an item a mapping of one entry. -/
def flowItems? (handles : Handles) :
    Nat → Bool → List Token → Option (List Named × List Token)
  | 0, _, _ => none
  | _ + 1, _, .flowSequenceEnd :: r => some ([], r)
  | fuel + 1, first, ts =>
    match (if first then some ts else match ts with
      | .flowEntry :: r => some r
      | _ => none) with
    | none => none
    | some (.flowSequenceEnd :: r) => some ([], r)
    | some (.key :: r) =>
      match flowPair? handles fuel r with
      | none => none
      | some (e, s) =>
        (flowItems? handles fuel false s).map fun (ns, u) => (mapping unnamed [e] :: ns, u)
    | some r =>
      match ofTokens? handles false false fuel r with
      | none => none
      | some (n, s) => (flowItems? handles fuel false s).map fun (ns, u) => (n :: ns, u)

/-- The entry behind a key in a flow sequence.  What stands in place of a missing key is passed over. -/
def flowPair? (handles : Handles) : Nat → List Token → Option ((Named × Named) × List Token)
  | 0, _ => none
  | fuel + 1, ts =>
    let missing := match ts with
      | .value :: _ => true
      | _ => endsFlowValue .flowSequenceEnd ts
    match (if missing then (if ts.isEmpty then none else some (absent, ts.drop 1))
      else ofTokens? handles false false fuel ts) with
    | none => none
    | some (k, s) =>
      match flowValue? handles .flowSequenceEnd fuel s with
      | none => none
      | some (v, u) => some ((k, v), u)

/-- Value of an entry in a flow collection, perhaps left out. -/
def flowValue? (handles : Handles) (closing : Token) : Nat → List Token → Option (Named × List Token)
  | 0, _ => none
  | fuel + 1, .value :: r =>
    if endsFlowValue closing r then some (absent, r) else ofTokens? handles false false fuel r
  | _ + 1, r => some (absent, r)

/-- Entries of a flow mapping up to its closing brace.  An entry without a key token has no value. -/
def flowEntries? (handles : Handles) :
    Nat → Bool → List Token → Option (List (Named × Named) × List Token)
  | 0, _, _ => none
  | _ + 1, _, .flowMappingEnd :: r => some ([], r)
  | fuel + 1, first, ts =>
    match (if first then some ts else match ts with
      | .flowEntry :: r => some r
      | _ => none) with
    | none => none
    | some (.flowMappingEnd :: r) => some ([], r)
    | some (.key :: r) =>
      let missing := match r with
        | .value :: _ => true
        | _ => endsFlowValue .flowMappingEnd r
      match (if missing then some (absent, r) else ofTokens? handles false false fuel r) with
      | none => none
      | some (k, s) =>
        match flowValue? handles .flowMappingEnd fuel s with
        | none => none
        | some (v, u) => (flowEntries? handles fuel false u).map fun (es, w) => ((k, v) :: es, w)
    | some r =>
      match ofTokens? handles false false fuel r with
      | none => none
      | some (n, s) => (flowEntries? handles fuel false s).map fun (es, u) => ((n, absent) :: es, u)

end

end Node

end AsmOrigin.Yaml
