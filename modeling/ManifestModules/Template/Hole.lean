/-! # Template holes

A hole is written `${NAME}` where `NAME` has no brace. A text can be exactly one
hole, exactly one spread `${NAME...}`, or a mixture of characters and holes;
`pieces` is its only reading as such a mixture.
-/

namespace ManifestModules.Template

/-- The characters before the first closing brace, if no opening brace comes before it. -/
def bodyAt? : List Char → Option (List Char)
  | [] => none
  | c :: rest =>
    if c = '\x7d' then some []
    else if c = '\x7b' then none
    else (bodyAt? rest).map (c :: ·)

def holeAt? : List Char → Option (List Char)
  | c :: d :: rest => if c = '$' ∧ d = '\x7b' then bodyAt? rest else none
  | _ => none

/-- A part of a text: a character, or a hole with its name. -/
inductive Piece where
  | char (c : Char)
  | hole (name : List Char)
deriving DecidableEq, Repr

/-- Reads a text from left to right; the first `skip` characters belong to a hole already read. -/
def piecesFrom : (skip : Nat) → List Char → List Piece
  | _, [] => []
  | skip + 1, _ :: rest => piecesFrom skip rest
  | 0, c :: rest =>
    match holeAt? (c :: rest) with
    | some name => .hole name :: piecesFrom (name.length + 2) rest
    | none => .char c :: piecesFrom 0 rest

def pieces (s : String) : List Piece :=
  piecesFrom 0 s.toList

def Piece.isHole : Piece → Bool
  | .hole _ => true
  | .char _ => false

/-- The name of the hole that makes up the whole text. -/
def expandIdent? (s : String) : Option String :=
  match holeAt? s.toList with
  | some name => if s.toList.length = name.length + 3 then some (String.ofList name) else none
  | none => none

def withoutDots? (name : List Char) : Option (List Char) :=
  if name.drop (name.length - 3) = ['.', '.', '.'] then some (name.take (name.length - 3))
  else none

def spreadIdent? (s : String) : Option String :=
  (expandIdent? s).bind fun name => (withoutDots? name.toList).map String.ofList

end ManifestModules.Template
