import ManifestModules.Yaml.Anchor
import ManifestModules.Yaml.Document
import ManifestModules.Yaml.Scalar

/-! # Data of a YAML document

The nodes of a document stand for data: scalars are given their meaning, aliases
are replaced by what they stand for, and local tags are kept. A mapping cannot
hold two entries with the same key.
-/

namespace ManifestModules.Yaml

inductive Data where
  | null
  | bool (b : Bool)
  | number (n : Number)
  | string (s : String)
  | sequence (items : List Data)
  | mapping (entries : List (Data × Data))
  | tagged (tag : String) (data : Data)
deriving Inhabited, Repr

namespace Data

/-- The name of a tag without an exclamation mark before it. -/
def tagName (tag : String) : List Char :=
  match tag.toList with
  | '!' :: rest => rest
  | cs => cs

mutual

/-- Equality of keys: mappings are compared without regard to order. -/
def same : Data → Data → Bool
  | .null, .null => true
  | .bool a, .bool b => a == b
  | .number a, .number b => a.same b
  | .string a, .string b => a == b
  | .sequence a, .sequence b => sameItems a b
  | .mapping a, .mapping b => a.length == b.length && sameEntries a b
  | .tagged t a, .tagged u b => tagName t == tagName u && same a b
  | _, _ => false

def sameItems : List Data → List Data → Bool
  | [], [] => true
  | a :: as, b :: bs => same a b && sameItems as bs
  | _, _ => false

def sameEntries : List (Data × Data) → List (Data × Data) → Bool
  | [], _ => true
  | (key, value) :: rest, others =>
    others.any (fun other => same key other.1 && same value other.2) && sameEntries rest others

end

def maxNesting : Nat := 128

/-- How often the aliases of a document may be followed, for each unit of its size. -/
def aliasAllowance : Nat := 100

def tagBase : String := "tag:yaml.org,2002:"

/-- The name of a local tag: what comes after its exclamation mark, if anything does. -/
def localTag? (tag : String) : Option String :=
  match tag.toList with
  | ['!'] => some tag
  | '!' :: rest => some (String.ofList rest)
  | _ => none

def ofMeaning (text : String) : Meaning → Except Problem Data
  | .null => .ok .null
  | .bool b => .ok (.bool b)
  | .number n => .ok (.number n)
  | .wideInteger => .error .integerRange
  | .text => .ok (.string text)

/-- A scalar with a tag that is not local. Four tags ask for a meaning, and the others for the
text as it is. -/
def ofTaggedScalar (tag text : String) : Except Problem Data :=
  if tag = tagBase ++ "bool" then
    match Scalar.bool? text with
    | some b => .ok (.bool b)
    | none => .error (.invalidScalar "a boolean")
  else if tag = tagBase ++ "int" then
    match (Scalar.integer? text.toList).bind Scalar.ofInteger? with
    | some meaning => ofMeaning text meaning
    | none => .error (.invalidScalar "an integer")
  else if tag = tagBase ++ "float" then
    match Scalar.float? text with
    | some x => .ok (.number (.float x))
    | none => .error (.invalidScalar "a float")
  else if tag = tagBase ++ "null" then
    if Scalar.isNull text then .ok .null else .error (.invalidScalar "null")
  else .ok (.string text)

def ofScalar (properties : Properties) (text : String) (plain : Bool) : Except Problem Data :=
  match properties.tag with
  | some tag =>
    if (localTag? tag).isSome && plain then ofMeaning text (meaning text)
    else if (localTag? tag).isSome then .ok (.string text)
    else ofTaggedScalar tag text
  | none => if plain then ofMeaning text (meaning text) else .ok (.string text)

def withTag (properties : Properties) (data : Data) : Data :=
  match properties.tag.bind localTag? with
  | none => data
  | some tag => .tagged tag data

def distinctKeys : List (Data × Data) → Bool
  | [] => true
  | (key, _) :: rest => rest.all (fun other => !same key other.1) && distinctKeys rest

structure Environment where
  anchors : Anchors
  /-- How often aliases may be followed. -/
  allowance : Nat

abbrev Decoding := StateT Nat (Except Problem)

/-- The node that stands at a place; an alias is followed to the node that it names. -/
def follow (env : Environment) (node : Node Nat) : Decoding (Node Nat) := do
  match node with
  | .alias target =>
    let followed ← get
    if followed ≥ env.allowance then throw .repetitionLimit
    set (followed + 1)
    match env.anchors.find? target with
    | some found => pure found
    | none => throw .unknownAnchor
  | other => pure other

/-- Decodes a node; `room` is the number of collections that may still be nested in each other. -/
def decode (env : Environment) : (room : Nat) → Node Nat → Decoding Data
  | room, node => do
    match room, ← follow env node with
    | _, .scalar properties text plain =>
      let data ← (ofScalar properties text plain : Except _ _)
      return withTag properties data
    | room + 1, .sequence properties items =>
      let items ← items.mapM (decode env room)
      return withTag properties (.sequence items)
    | room + 1, .mapping properties entries =>
      let entries ← entries.mapM fun (key, value) => do
        let key ← decode env room key
        return (key, ← decode env room value)
      if !distinctKeys entries then throw .duplicateKey
      return withTag properties (.mapping entries)
    | _, _ => throw .recursionLimit

def ofRoot (root : Node String) : Except Problem Data := do
  let (node, anchors) ← root.link.run ⟨[], 0, []⟩
  let env : Environment := ⟨anchors, aliasAllowance * node.size⟩
  (decode env maxNesting node).run' 0

def ofDocument (document : Document) : Except Problem Data := do
  let data ← ofRoot document.root
  match document.problem with
  | none => pure data
  | some problem => throw problem

end Data

/-- The data of the documents of a text, each with the problem that spoils it. -/
def sections (text : String) : List (Except Problem Data) :=
  let documents := Documents.ofText text
  documents.list.map Data.ofDocument ++ (documents.problem.map Except.error).toList

end ManifestModules.Yaml
