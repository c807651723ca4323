import ManifestModules.Yaml.Char

/-! # Reading positions

A cursor is what is still to be read, with the index, line and column of its
first character.
-/

namespace ManifestModules.Yaml

structure Position where
  index : Nat
  line : Nat
  column : Nat
deriving DecidableEq, Repr

namespace Position

/-- The position after a character that is no line break. -/
def next (p : Position) : Position := { p with index := p.index + 1, column := p.column + 1 }

def advance (p : Position) (n : Nat) : Position :=
  { p with index := p.index + n, column := p.column + n }

def nextLine (p : Position) (width : Nat) : Position := ⟨p.index + width, p.line + 1, 0⟩

end Position

structure Cursor where
  rest : List Char
  position : Position
deriving Repr

namespace Cursor

/-- Passes over the first `n` characters, none of them a line break. -/
def skip (cursor : Cursor) (n : Nat) : Cursor :=
  ⟨cursor.rest.drop n, cursor.position.advance n⟩

def skipWhile (cursor : Cursor) (p : Char → Bool) : Cursor :=
  cursor.skip (cursor.rest.takeWhile p).length

def skipBreak (cursor : Cursor) : Cursor :=
  match cursor.rest with
  | '\r' :: '\n' :: rest => ⟨rest, cursor.position.nextLine 2⟩
  | c :: rest => if isBreak c then ⟨rest, cursor.position.nextLine 1⟩ else cursor
  | [] => cursor

def skipBlanksAndComment (cursor : Cursor) : Cursor :=
  let cursor := cursor.skipWhile isBlank
  if cursor.rest.head? = some '#' then cursor.skipWhile (fun c => !isBreak c) else cursor

end Cursor

end ManifestModules.Yaml
