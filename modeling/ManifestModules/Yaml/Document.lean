import ManifestModules.Yaml.Node
import ManifestModules.Yaml.Token.Lexer

/-! # Documents of a YAML text

A text is a sequence of documents. The first one may begin without a marker,
every later one needs it. Reading stops at the first problem; the documents
before it are complete.
-/

namespace ManifestModules.Yaml

structure Document where
  root : Node String
  /-- A problem right after the root. -/
  problem : Option Problem
deriving Inhabited, Repr

/-- The documents of a text, and the problem that prevents a further one. -/
structure Documents where
  list : List Document
  problem : Option Problem
deriving Repr

namespace Document

structure Directives where
  version : Bool
  handles : TagHandles

/-- A version directive is given once, for a version that is known. -/
def Directives.addVersion (directives : Directives) (major minor : Nat) :
    Except Problem Directives :=
  if directives.version then .error .duplicateDirective
  else if major = 1 && (minor = 1 || minor = 2) then .ok { directives with version := true }
  else .error .incompatibleVersion

def Directives.addTag (directives : Directives) (handle start : String) :
    Except Problem Directives :=
  if (directives.handles.lookup handle).isSome then .error .duplicateDirective
  else .ok { directives with handles := (handle, start) :: directives.handles }

/-- Declared handles hide the standard ones. -/
def readDirectives : (fuel : Nat) → Directives → Reader TagHandles
  | 0, _ => throw .unexpectedEnd
  | fuel + 1, directives => do
    match ← Reader.next? with
    | some (.versionDirective major minor) =>
      let directives ← (directives.addVersion major minor : Except _ _)
      Reader.skip
      readDirectives fuel directives
    | some (.tagDirective handle start) =>
      let directives ← (directives.addTag handle start : Except _ _)
      Reader.skip
      readDirectives fuel directives
    | _ => pure (directives.handles ++ TagHandles.standard)

/-- What follows has no content: another document begins, or the text ends. -/
def atBoundary : Reader Bool := do
  return match ← Reader.next? with
  | some (.versionDirective ..) | some (.tagDirective ..) | some .documentStart
  | some .documentEnd | none => true
  | _ => false

def skipEnds : (fuel : Nat) → Reader Unit
  | 0 => throw .unexpectedEnd
  | fuel + 1 => do
    if ← Reader.atAny [.documentEnd] then
      Reader.skip
      skipEnds fuel

def readNext? (first : Bool) : Reader (Option (Node String)) := do
  let bound := (← get).list.length + 1
  unless first do skipEnds bound
  match ← Reader.next? with
  | none => return none
  | some token =>
    if first then
      match token with
      | .versionDirective .. | .tagDirective .. | .documentStart => pure ()
      | _ => return some (← Node.readRoot TagHandles.standard)
    let handles ← readDirectives bound ⟨false, []⟩
    unless ← Reader.atAny [.documentStart] do throw .missingDocumentStart
    Reader.skip
    if ← atBoundary then return some Node.empty
    return some (← Node.readRoot handles)

/-- A document end marker after the root belongs to the document. -/
def readEnd : Reader Unit := do
  if ← Reader.atAny [.documentEnd] then Reader.skip

end Document

namespace Documents

/-- Reads the documents from the front of the tokens; each takes a token at least. -/
def readFrom : (fuel : Nat) → (first : Bool) → Tokens → Documents
  | 0, _, _ => ⟨[], some .unexpectedEnd⟩
  | fuel + 1, first, tokens =>
    match (Document.readNext? first).run tokens with
    | .error problem => ⟨[], some problem⟩
    | .ok (none, _) => ⟨[], none⟩
    | .ok (some root, tokens) =>
      match Document.readEnd.run tokens with
      | .error problem => ⟨[⟨root, some problem⟩], none⟩
      | .ok (_, tokens) =>
        let later := readFrom fuel false tokens
        { later with list := ⟨root, none⟩ :: later.list }

/-- An empty text is one empty document. -/
def ofText (text : String) : Documents :=
  let tokens := tokenize text
  let documents := readFrom (tokens.list.length + 2) true tokens
  if documents.list.isEmpty && documents.problem.isNone then ⟨[⟨Node.empty, none⟩], none⟩
  else documents

end Documents

end ManifestModules.Yaml
