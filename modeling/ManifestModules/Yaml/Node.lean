import ManifestModules.Yaml.Token

/-! # Nodes of a YAML document

The tokens of a document form a tree of nodes. The grammar is read by recursive
descent; a missing node is an empty plain scalar wherever the grammar allows it.
-/

namespace ManifestModules.Yaml

structure Properties where
  anchor : Option String
  tag : Option String
deriving DecidableEq, Repr

/-- A node whose aliases are given by an `α`, such as the name they are written with. -/
inductive Node (α : Type) where
  | scalar (properties : Properties) (text : String) (plain : Bool)
  | sequence (properties : Properties) (items : List (Node α))
  | mapping (properties : Properties) (entries : List (Node α × Node α))
  | alias (target : α)
deriving Inhabited, Repr

namespace Node

def empty {α : Type} : Node α := .scalar ⟨none, none⟩ "" true

/-- The tag that says no more than that there is a tag. -/
def bareTag : String := "!"

/-- A scalar with a bare tag is read as one without a tag. -/
def ofScalar (properties : Properties) (text : String) (style : ScalarStyle) : Node String :=
  let tag := properties.tag.filter (· ≠ bareTag)
  .scalar { properties with tag } text (style = .plain)

end Node

abbrev Reader := StateT Tokens (Except Problem)

namespace Reader

/-- The next token; none at the end of the text. A problem shows where its token is wanted. -/
def next? : Reader (Option Token) := do
  let tokens ← get
  match tokens.list, tokens.problem with
  | token :: _, _ => pure (some token)
  | [], some problem => throw problem
  | [], none => pure none

def skip : Reader Unit := modify fun tokens => { tokens with list := tokens.list.drop 1 }

def atAny (expected : List Token) : Reader Bool := do
  return match ← next? with
  | some token => expected.contains token
  | none => false

end Reader

open Reader

/-- The beginnings that the tag handles of a document stand for. -/
abbrev TagHandles := List (String × String)

namespace TagHandles

def standard : TagHandles := [("!", "!"), ("!!", "tag:yaml.org,2002:")]

def tag (handles : TagHandles) (handle suffix : String) : Except Problem String :=
  if handle = "" then .ok suffix
  else
    match handles.lookup handle with
    | some start => .ok (start ++ suffix)
    | none => .error .undefinedTagHandle

end TagHandles

namespace Node

/-- Where a node stands; this decides about block collections. -/
inductive Place where
  | flow
  | block
  /-- A key or value of a block mapping, which may be a sequence that is not indented. -/
  | blockEntry
deriving DecidableEq, Repr

def readAnchor : Reader (Option String) := do
  match ← next? with
  | some (.anchor name) => skip; pure (some name)
  | _ => pure none

def readTag : Reader (Option (String × String)) := do
  match ← next? with
  | some (.tag handle suffix) => skip; pure (some (handle, suffix))
  | _ => pure none

def readProperties (handles : TagHandles) : Reader Properties := do
  let first ← readAnchor
  let written ← readTag
  let anchor ← if first.isNone && written.isSome then readAnchor else pure first
  let tag ← written.mapM fun (handle, suffix) => (handles.tag handle suffix : Except _ _)
  pure ⟨anchor, tag⟩

mutual

/-- Reads a node. Every call takes a token or is followed by one that does. -/
def read (handles : TagHandles) : (fuel : Nat) → Place → Reader (Node String)
  | 0, _ => throw .unexpectedEnd
  | fuel + 1, place => do
    if let some (.alias name) ← next? then
      skip
      return .alias name
    let properties ← readProperties handles
    match ← next?, place with
    | some .blockEntry, .blockEntry => .sequence properties <$> looseEntries handles fuel
    | some (.scalar text style), _ => skip; pure (ofScalar properties text style)
    | some .flowSequenceStart, _ =>
      skip
      .sequence properties <$> flowItems handles fuel true
    | some .flowMappingStart, _ =>
      skip
      .mapping properties <$> flowEntries handles fuel true
    | some .blockSequenceStart, .block | some .blockSequenceStart, .blockEntry =>
      skip
      .sequence properties <$> blockItems handles fuel
    | some .blockMappingStart, .block | some .blockMappingStart, .blockEntry =>
      skip
      .mapping properties <$> blockEntries handles fuel
    | _, _ =>
      if properties.anchor.isSome || properties.tag.isSome then
        pure (.scalar properties "" true)
      else throw .missingContent

def readOptional (handles : TagHandles) (stops : List Token) :
    (fuel : Nat) → Place → Reader (Node String)
  | 0, _ => throw .unexpectedEnd
  | fuel + 1, place => do
    if ← atAny stops then pure empty else read handles fuel place

def blockItems (handles : TagHandles) : (fuel : Nat) → Reader (List (Node String))
  | 0 => throw .unexpectedEnd
  | fuel + 1 => do
    match ← next? with
    | some .blockEntry =>
      skip
      let item ← readOptional handles [.blockEntry, .blockEnd] fuel .block
      return item :: (← blockItems handles fuel)
    | some .blockEnd => skip; pure []
    | _ => throw .missingEntry

/-- The items of a sequence that is not indented; it ends at the first other token. -/
def looseEntries (handles : TagHandles) : (fuel : Nat) → Reader (List (Node String))
  | 0 => throw .unexpectedEnd
  | fuel + 1 => do
    if ← atAny [.blockEntry] then
      skip
      let item ← readOptional handles [.blockEntry, .key, .value, .blockEnd] fuel .block
      return item :: (← looseEntries handles fuel)
    else pure []

/-- The entries of a block mapping up to its end. Each begins with a key. -/
def blockEntries (handles : TagHandles) : (fuel : Nat) → Reader (List (Node String × Node String))
  | 0 => throw .unexpectedEnd
  | fuel + 1 => do
    match ← next? with
    | some .key =>
      skip
      let key ← readOptional handles [.key, .value, .blockEnd] fuel .blockEntry
      let value ←
        if ← atAny [.value] then
          skip
          readOptional handles [.key, .value, .blockEnd] fuel .blockEntry
        else pure empty
      return (key, value) :: (← blockEntries handles fuel)
    | some .blockEnd => skip; pure []
    | _ => throw .missingKey

/-- The items of a flow sequence after its bracket or, if not the first, after an item. A key
among them makes a mapping of one entry. -/
def flowItems (handles : TagHandles) : (fuel : Nat) → (first : Bool) → Reader (List (Node String))
  | 0, _ => throw .unexpectedEnd
  | fuel + 1, first => do
    if ← atAny [.flowSequenceEnd] then
      skip
      return []
    unless first do
      if ← atAny [.flowEntry] then skip else throw .missingFlowEntry
    match ← next? with
    | some .flowSequenceEnd => skip; pure []
    | some .key =>
      skip
      let key ←
        if ← atAny [.value, .flowEntry, .flowSequenceEnd] then
          skip
          pure empty
        else read handles fuel .flow
      let value ←
        if ← atAny [.value] then
          skip
          readOptional handles [.flowEntry, .flowSequenceEnd] fuel .flow
        else pure empty
      return .mapping ⟨none, none⟩ [(key, value)] :: (← flowItems handles fuel false)
    | _ =>
      let item ← read handles fuel .flow
      return item :: (← flowItems handles fuel false)

def flowEntries (handles : TagHandles) :
    (fuel : Nat) → (first : Bool) → Reader (List (Node String × Node String))
  | 0, _ => throw .unexpectedEnd
  | fuel + 1, first => do
    if ← atAny [.flowMappingEnd] then
      skip
      return []
    unless first do
      if ← atAny [.flowEntry] then skip else throw .missingFlowEntry
    match ← next? with
    | some .flowMappingEnd => skip; pure []
    | some .key =>
      skip
      let key ← readOptional handles [.value, .flowEntry, .flowMappingEnd] fuel .flow
      let value ←
        if ← atAny [.value] then
          skip
          readOptional handles [.flowEntry, .flowMappingEnd] fuel .flow
        else pure empty
      return (key, value) :: (← flowEntries handles fuel false)
    | _ =>
      let key ← read handles fuel .flow
      return (key, empty) :: (← flowEntries handles fuel false)

end

def readRoot (handles : TagHandles) : Reader (Node String) := do
  let tokens ← get
  read handles (3 * tokens.list.length + 3) .block

end Node

end ManifestModules.Yaml
