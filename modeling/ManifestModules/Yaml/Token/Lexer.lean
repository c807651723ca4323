import ManifestModules.Yaml.Token.Name
import ManifestModules.Yaml.Token.Scalar

/-! # Tokens of a text

A mapping key is only known as one when the colon after it is met. A token that
may begin a key is therefore remembered as a candidate, and the tokens that
announce the key are put in front of it later. A candidate lasts to the end of
its line and for `keyLength` characters at most.
-/

namespace ManifestModules.Yaml

/-- A token that may turn out to begin a mapping key. -/
structure KeyCandidate where
  position : Position
  tokenNumber : Nat
  /-- A line at the indentation of a block collection can only begin with a key. -/
  required : Bool
deriving DecidableEq, Repr

/-- The greatest distance from the beginning of a key to its colon. -/
def keyLength : Nat := 1024

def KeyCandidate.isStale (candidate : KeyCandidate) (p : Position) : Bool :=
  candidate.position.line < p.line || candidate.position.index + keyLength < p.index

/-- How far a text has been divided into tokens. -/
structure Lexer where
  cursor : Cursor
  /-- The tokens so far, last one first. -/
  tokens : List Token
  /-- The number of tokens so far. -/
  count : Nat
  /-- The columns of the open block collections, innermost first. -/
  indents : List Nat
  /-- A key or a block collection may begin here. -/
  keyAllowed : Bool
  candidate : Option KeyCandidate
  /-- The candidates around each open flow collection, innermost first. -/
  outerCandidates : List (Option KeyCandidate)
deriving Repr

namespace Lexer

def start (cs : List Char) : Lexer := ⟨⟨cs, ⟨0, 0, 0⟩⟩, [], 0, [], true, none, []⟩

def column (s : Lexer) : Nat := s.cursor.position.column

def inFlow (s : Lexer) : Bool := !s.outerCandidates.isEmpty

/-- The column of the innermost block collection; -1 outside of all. -/
def indent (s : Lexer) : Int :=
  match s.indents with
  | column :: _ => column
  | [] => -1

def emit (s : Lexer) (token : Token) : Lexer :=
  { s with tokens := token :: s.tokens, count := s.count + 1 }

def emitBefore (s : Lexer) (number : Nat) (token : Token) : Lexer :=
  let later := s.count - number
  { s with
    tokens := s.tokens.take later ++ token :: s.tokens.drop later
    count := s.count + 1 }

def emitHere (s : Lexer) (token : Token) : Lexer :=
  { s.emit token with cursor := s.cursor.skip 1 }

/-- Gives up the current candidate, which is an error if only a key could stand there. -/
def dropCandidate (s : Lexer) : Except Problem Lexer :=
  if s.candidate.any (·.required) then .error .missingColon else .ok { s with candidate := none }

def proposeKey (s : Lexer) : Except Problem Lexer :=
  if s.keyAllowed then do
    let required := !s.inFlow && s.indent = s.column
    let s ← s.dropCandidate
    pure { s with candidate := some ⟨s.cursor.position, s.count, required⟩ }
  else pure s

def dropStale (s : Lexer) : Except Problem Lexer :=
  let isStale (candidate : KeyCandidate) := candidate.isStale s.cursor.position
  if (s.candidate :: s.outerCandidates).any (·.any fun k => isStale k && k.required) then
    .error .missingColon
  else
    .ok { s with
      candidate := s.candidate.filter (!isStale ·)
      outerCandidates := s.outerCandidates.map (·.filter (!isStale ·)) }

def closeBlocks (s : Lexer) (column : Int) : Lexer :=
  if s.inFlow then s
  else
    let closed := s.indents.takeWhile fun (indent : Nat) => column < (indent : Int)
    { s with
      indents := s.indents.drop closed.length
      tokens := closed.map (fun _ => .blockEnd) ++ s.tokens
      count := s.count + closed.length }

/-- Opens a block collection at `column` if none is open there, its token before the one with the
given number. -/
def openBlock (s : Lexer) (column number : Nat) (token : Token) : Lexer :=
  if s.inFlow || s.indent ≥ column then s
  else { s.emitBefore number token with indents := column :: s.indents }

/-- Passes over white space and comments. Tabs are skipped only where no block structure can
begin, and a line break outside of flow collections allows keys again. -/
def skipSpace (inFlow : Bool) :
    List Char → Position → (keyAllowed inComment : Bool) → Cursor × Bool
  | [], p, keyAllowed, _ => (⟨[], p⟩, keyAllowed)
  | '\r' :: '\n' :: rest, p, keyAllowed, _ =>
    skipSpace inFlow rest (p.nextLine 2) (keyAllowed || !inFlow) false
  | c :: rest, p, keyAllowed, inComment =>
    if isBreak c then skipSpace inFlow rest (p.nextLine 1) (keyAllowed || !inFlow) false
    else if inComment || c = ' ' || (c = '\t' && (inFlow || !keyAllowed))
        || (c = byteOrderMark && p.column = 0) then
      skipSpace inFlow rest p.next keyAllowed inComment
    else if c = '#' then skipSpace inFlow rest p.next keyAllowed true
    else (⟨c :: rest, p⟩, keyAllowed)

def advance (s : Lexer) : Except Problem Lexer := do
  let (cursor, keyAllowed) :=
    skipSpace s.inFlow s.cursor.rest s.cursor.position s.keyAllowed false
  let s ← { s with cursor, keyAllowed }.dropStale
  pure (s.closeBlocks s.column)

/-- Closes everything that a document marker, a directive or the end of the text closes. -/
def closeDocument (s : Lexer) : Except Problem Lexer := do
  let s ← (s.closeBlocks (-1)).dropCandidate
  pure { s with keyAllowed := false }

def readMarker (s : Lexer) (token : Token) : Except Problem Lexer := do
  let s ← s.closeDocument
  pure { s.emit token with cursor := s.cursor.skip 3 }

def readDirective (s : Lexer) : Except Problem Lexer := do
  let s ← s.closeDocument
  let (token, cursor) ← Name.directive s.cursor
  pure { s.emit token with cursor }

def openFlow (s : Lexer) (token : Token) : Except Problem Lexer := do
  let s ← s.proposeKey
  pure { s.emitHere token with
    keyAllowed := true
    candidate := none
    outerCandidates := s.candidate :: s.outerCandidates }

def closeFlow (s : Lexer) (token : Token) : Except Problem Lexer := do
  let s ← s.dropCandidate
  let s := { s.emitHere token with keyAllowed := false }
  match s.outerCandidates with
  | candidate :: outerCandidates => pure { s with candidate, outerCandidates }
  | [] => pure s

def readFlowEntry (s : Lexer) : Except Problem Lexer := do
  let s ← s.dropCandidate
  pure { s.emitHere .flowEntry with keyAllowed := true }

/-- A block indicator opens its collection where one may begin. -/
def beginBlock (s : Lexer) (token : Token) (problem : Problem) : Except Problem Lexer :=
  if s.inFlow then .ok s
  else if s.keyAllowed then .ok (s.openBlock s.column s.count token)
  else .error problem

def readBlockEntry (s : Lexer) : Except Problem Lexer := do
  let s ← s.beginBlock .blockSequenceStart .sequenceNotAllowed
  let s ← s.dropCandidate
  pure { s.emitHere .blockEntry with keyAllowed := true }

def readKey (s : Lexer) : Except Problem Lexer := do
  let s ← s.beginBlock .blockMappingStart .keyNotAllowed
  let s ← s.dropCandidate
  pure { s.emitHere .key with keyAllowed := !s.inFlow }

/-- A colon makes the current candidate a key. -/
def readValue (s : Lexer) : Except Problem Lexer :=
  match s.candidate with
  | some k =>
    let s := s.emitBefore k.tokenNumber .key
    let s := s.openBlock k.position.column k.tokenNumber .blockMappingStart
    .ok { s.emitHere .value with candidate := none, keyAllowed := false }
  | none => do
    let s ← s.beginBlock .blockMappingStart .valueNotAllowed
    pure { s.emitHere .value with keyAllowed := !s.inFlow }

def readName (s : Lexer) (read : Cursor → Except Problem (Token × Cursor)) :
    Except Problem Lexer := do
  let s ← s.proposeKey
  let (token, cursor) ← read s.cursor
  pure { s.emit token with cursor, keyAllowed := false }

/-- Reads a plain or quoted scalar. After one that ended on a later line a key may begin. -/
def readScalar (s : Lexer) (style : ScalarStyle) (read : Cursor → Except Problem ScannedScalar) :
    Except Problem Lexer := do
  let s ← s.proposeKey
  let found ← read s.cursor
  pure { s.emit (.scalar found.text style) with
    cursor := found.cursor
    keyAllowed := found.brokeLine }

def readPlain (s : Lexer) : Except Problem Lexer :=
  s.readScalar .plain fun cursor =>
    Plain.scan s.inFlow (s.indent + 1).toNat cursor.rest cursor.position .start false

def readBlockScalar (s : Lexer) (style : ScalarStyle) : Except Problem Lexer := do
  if s.inFlow then throw .unexpectedCharacter
  let s ← s.dropCandidate
  let found ← Block.read (style = .literal) s.indent s.cursor
  pure { s.emit (.scalar found.text style) with cursor := found.cursor, keyAllowed := true }

def readToken (s : Lexer) (c : Char) (rest : List Char) : Except Problem Lexer :=
  if s.column = 0 && c = '%' then s.readDirective
  else if s.column = 0 && markerAhead '-' (c :: rest) then s.readMarker .documentStart
  else if s.column = 0 && markerAhead '.' (c :: rest) then s.readMarker .documentEnd
  else
    match c with
    | '[' => s.openFlow .flowSequenceStart
    | '\x7b' => s.openFlow .flowMappingStart
    | ']' => s.closeFlow .flowSequenceEnd
    | '\x7d' => s.closeFlow .flowMappingEnd
    | ',' => s.readFlowEntry
    | '-' => if blankAhead rest then s.readBlockEntry else s.readPlain
    | '?' => if s.inFlow || blankAhead rest then s.readKey else s.readPlain
    | ':' => if s.inFlow || blankAhead rest then s.readValue else s.readPlain
    | '*' => s.readName fun cursor => (Name.anchor cursor).map fun (name, r) => (.alias name, r)
    | '&' => s.readName fun cursor => (Name.anchor cursor).map fun (name, r) => (.anchor name, r)
    | '!' => s.readName (Name.tag s.inFlow)
    | '|' => s.readBlockScalar .literal
    | '>' => s.readBlockScalar .folded
    | '\'' => s.readScalar .singleQuoted fun cursor =>
        Quoted.scanSingle (cursor.skip 1).rest (cursor.skip 1).position .start
    | '"' => s.readScalar .doubleQuoted fun cursor =>
        Quoted.scanDouble (cursor.skip 1).rest (cursor.skip 1).position .start none
    | '\t' | '#' | '%' | '@' | '\x60' => .error .unexpectedCharacter
    | _ => s.readPlain

/-- The tokens before a problem. A token that may still have to be announced as a key is not given
out before that is settled. -/
def stopped (s : Lexer) (problem : Problem) : Tokens :=
  let unsettled := (s.candidate :: s.outerCandidates).filterMap fun candidate =>
    candidate.filter fun k => k.required || !k.isStale s.cursor.position
  let settled := (unsettled.map (·.tokenNumber)).foldl min s.count
  ⟨s.tokens.reverse.take settled, some problem⟩

/-- Reads on to the end; each token takes at least one character of the text. -/
def run : (fuel : Nat) → Lexer → Tokens
  | 0, s => s.stopped .unexpectedEnd
  | fuel + 1, s =>
    match s.advance with
    | .error problem => s.stopped problem
    | .ok here =>
      match here.cursor.rest with
      | [] =>
        match here.closeDocument with
        | .ok done => ⟨done.tokens.reverse, none⟩
        | .error problem => s.stopped problem
      | c :: rest =>
        match here.readToken c rest with
        | .ok next => run fuel next
        | .error problem => s.stopped problem

end Lexer

def withoutMark : List Char → List Char
  | c :: rest => if c = byteOrderMark then rest else c :: rest
  | [] => []

/-- The tokens of a text. A character that is not allowed spoils the whole text. -/
def tokenize (text : String) : Tokens :=
  let cs := withoutMark text.toList
  if cs.all isAllowed then Lexer.run (cs.length + 1) (Lexer.start cs)
  else ⟨[], some .controlCharacter⟩

end ManifestModules.Yaml
