import ManifestModules.Yaml.Cursor
import ManifestModules.Yaml.Token

/-! # Anchors, tags and directives

The tokens that consist of names: anchors and aliases, tags in their three
spellings, and the two directives.
-/

namespace ManifestModules.Yaml

namespace Name

/-- Word characters are always read as far as they go. -/
def word (cursor : Cursor) : List Char × Cursor :=
  let name := cursor.rest.takeWhile isWordChar
  (name, cursor.skip name.length)

/-- An anchor name is followed by a blank or by an indicator that cannot be part of it. -/
def endsAnchor : List Char → Bool
  | [] => true
  | c :: rest =>
    blankAhead (c :: rest) || c = '?' || c = ':' || c = ',' || c = ']' || c = '\x7d' || c = '%'
      || c = '@' || c = '\x60'

def anchor (cursor : Cursor) : Except Problem (String × Cursor) :=
  let (name, after) := word (cursor.skip 1)
  if name.isEmpty || !endsAnchor after.rest then .error .badAnchorName
  else .ok (String.ofList name, after)

/-- The characters of a tag, apart from escapes. Flow indicators count inside angle brackets. -/
def isTagChar (bracketed : Bool) (c : Char) : Bool :=
  isWordChar c || c = ';' || c = '/' || c = '?' || c = ':' || c = '@' || c = '&' || c = '='
    || c = '+' || c = '$' || c = '.' || c = '!' || c = '~' || c = '*' || c = '\'' || c = '('
    || c = ')' || (bracketed && (c = ',' || c = '[' || c = ']'))

/-- The length of the encoded character that begins with this octet, and the octet's share. -/
def leadingOctet? (octet : Nat) : Option (Nat × Nat) :=
  if octet < 0x80 then some (1, octet)
  else if 0xc0 ≤ octet ∧ octet < 0xe0 then some (2, octet - 0xc0)
  else if 0xe0 ≤ octet ∧ octet < 0xf0 then some (3, octet - 0xe0)
  else if 0xf0 ≤ octet ∧ octet < 0xf8 then some (4, octet - 0xf0)
  else none

/-- Reads the characters of a tag. An escape is a percent sign with two digits for each octet of
one encoded character; `octets` of them are still to come for the character `code`. -/
def tagChars (bracketed : Bool) :
    List Char → Position → (octets code : Nat) → List Char → Except Problem (List Char × Cursor)
  | '%' :: a :: b :: rest, p, octets, code, text =>
    match hexValue? a, hexValue? b with
    | some high, some low =>
      let octet := 16 * high + low
      match octets with
      | 0 =>
        match leadingOctet? octet with
        | none => .error .badTag
        | some (1, share) => tagChars bracketed rest (p.advance 3) 0 0 (Char.ofNat share :: text)
        | some (width, share) => tagChars bracketed rest (p.advance 3) (width - 1) share text
      | octets + 1 =>
        if 0x80 ≤ octet ∧ octet < 0xc0 then
          let code := 64 * code + (octet - 0x80)
          match octets with
          | 0 => tagChars bracketed rest (p.advance 3) 0 0 (Char.ofNat code :: text)
          | missing => tagChars bracketed rest (p.advance 3) missing code text
        else .error .badTag
    | _, _ => .error .badTag
  | '%' :: _, _, _, _, _ => .error .badTag
  | [], p, octets, _, text =>
    if octets = 0 then .ok (text.reverse, ⟨[], p⟩) else .error .badTag
  | c :: rest, p, octets, _, text =>
    if octets ≠ 0 then .error .badTag
    else if isTagChar bracketed c then tagChars bracketed rest p.next 0 0 (c :: text)
    else .ok (text.reverse, ⟨c :: rest, p⟩)

def tagText (bracketed : Bool) (cursor : Cursor) : Except Problem (List Char × Cursor) := do
  let (text, after) ← tagChars bracketed cursor.rest cursor.position 0 0 []
  if text.isEmpty then .error .badTag else .ok (text, after)

/-- Reads `!`, the word after it, and a second `!` if there is one. -/
def handle (cursor : Cursor) : List Char × Cursor :=
  let (name, after) := word (cursor.skip 1)
  if after.rest.head? = some '!' then ('!' :: name ++ ['!'], after.skip 1)
  else ('!' :: name, after)

/-- A tag ends before a blank, or before a comma in a flow collection. -/
def endsTag (inFlow : Bool) (rest : List Char) : Bool :=
  blankAhead rest || (inFlow && rest.head? = some ',')

/-- Reads a tag: its handle and the rest of it. A tag without a handle of its own has the handle
`!`; the tag in angle brackets and the lone `!` have none. -/
def tag (inFlow : Bool) (cursor : Cursor) : Except Problem (Token × Cursor) := do
  let (found, after) ←
    match cursor.rest with
    | '!' :: '<' :: _ => do
      let (text, after) ← tagText true (cursor.skip 2)
      if after.rest.head? = some '>' then
        pure (Token.tag "" (String.ofList text), after.skip 1)
      else throw .badTag
    | _ =>
      let (name, after) := handle cursor
      if name.length > 1 && name.getLast? = some '!' then do
        let (text, after) ← tagText false after
        pure (Token.tag (String.ofList name) (String.ofList text), after)
      else do
        let (text, after) ← tagChars false after.rest after.position 0 0 []
        match name.drop 1 ++ text with
        | [] => pure (Token.tag "" "!", after)
        | suffix => pure (Token.tag "!" (String.ofList suffix), after)
  if endsTag inFlow after.rest then .ok (found, after) else .error .badTag

def versionNumber (cursor : Cursor) : Except Problem (Nat × Cursor) :=
  let digits := cursor.rest.takeWhile Char.isDigit
  if digits.isEmpty || digits.length > 9 then .error .badVersionNumber
  else .ok (digits.foldl (fun n c => 10 * n + (c.toNat - '0'.toNat)) 0, cursor.skip digits.length)

def directive (cursor : Cursor) : Except Problem (Token × Cursor) := do
  let (name, after) := word (cursor.skip 1)
  if name.isEmpty || !blankAhead after.rest then throw .unknownDirective
  let (found, after) ←
    match String.ofList name with
    | "YAML" => do
      let (major, after) ← versionNumber (after.skipWhile isBlank)
      if after.rest.head? ≠ some '.' then throw .badVersionNumber
      let (minor, after) ← versionNumber (after.skip 1)
      pure (Token.versionDirective major minor, after)
    | "TAG" => do
      let after := after.skipWhile isBlank
      if after.rest.head? ≠ some '!' then throw .badTagHandle
      let (name, after) := handle after
      if name.length > 1 && name.getLast? ≠ some '!' then throw .badTagHandle
      if !(after.rest.head?.any isBlank) then throw .badTagHandle
      let (text, after) ← tagText true (after.skipWhile isBlank)
      if !blankAhead after.rest then throw .badTag
      pure (Token.tagDirective (String.ofList name) (String.ofList text), after)
    | _ => throw .unknownDirective
  let after := after.skipBlanksAndComment
  if breakAhead after.rest then pure (found, after.skipBreak) else throw .malformedDirective

end Name

end ManifestModules.Yaml
