import ManifestModules.Template.Hole
import ManifestModules.Template.Lookup
import ManifestModules.Template.Suggest

/-! # Substitution

Substitution builds a new value from a template and a resolver of identifiers.
A string that is one hole becomes the resolved value, a spread in a list its
items, and holes inside a longer string their text. Resolved values are never
searched for holes.
-/

namespace ManifestModules.Template

variable {m : Type → Type} [Monad m]

/-- Answers identifiers; it may fail, and it may have effects of its own. -/
abbrev Resolver (m : Type → Type) := String → ExceptT Failure m Value

def fillText? : Value → Option String
  | .string s => some s
  | .number n => some n.label
  | _ => none

/-- Replaces the holes of a longer string from left to right. -/
def fillPieces (resolve : Resolver m) (template : String) : List Piece → ExceptT Failure m String
  | [] => return ""
  | .char c :: rest => return String.ofList [c] ++ (← fillPieces resolve template rest)
  | .hole name :: rest => do
    let ident := String.ofList name
    let value ← resolve ident
    match fillText? value with
    | some text => return text ++ (← fillPieces resolve template rest)
    | none => throw (.fillTypeMismatch ident template value.typeName)

def substituteString (resolve : Resolver m) (s : String) : ExceptT Failure m Value :=
  match expandIdent? s with
  | some ident => resolve ident
  | none =>
    let parts := pieces s
    if parts.any Piece.isHole then Value.string <$> fillPieces resolve s parts
    else return .string s

def spreadItems (ident : String) (value : Value) : ExceptT Failure m (List Value) :=
  match value with
  | .list items => return items
  | other => throw (.spreadTypeMismatch ident other.typeName)

def spreadOf? : Value → Option String
  | .string s => spreadIdent? s
  | _ => none

mutual

def substitute (resolve : Resolver m) : Value → ExceptT Failure m Value
  | .string s => substituteString resolve s
  | .list items => Value.list <$> substituteItems resolve items
  | .map entries => Value.map <$> substituteEntries resolve entries
  | .null => return .null
  | .bool b => return .bool b
  | .number n => return .number n

def substituteItems (resolve : Resolver m) : List Value → ExceptT Failure m (List Value)
  | [] => return []
  | item :: rest => do
    let items ← match spreadOf? item with
      | some ident => do spreadItems ident (← resolve ident)
      | none => do pure [← substitute resolve item]
    return items ++ (← substituteItems resolve rest)

/-- Values in the order of their keys; the keys themselves are no templates. -/
def substituteEntries (resolve : Resolver m) :
    List (String × Value) → ExceptT Failure m (List (String × Value))
  | [] => return []
  | (key, value) :: rest => do
    let filled ← substitute resolve value
    return (key, filled) :: (← substituteEntries resolve rest)

end

def resolveParam (scope : String) (params : Entries) (ident : String) : Except Failure Value :=
  let (head, segments) := splitIdent ident
  match params.lookup head with
  | some value => indexPath ident value segments
  | none => .error (.unknownIdentifier ident scope (similarNames head (Table.keys params)))

def defaultScope : String := "<params>"

end ManifestModules.Template
