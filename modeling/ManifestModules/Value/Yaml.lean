import ManifestModules.Value.Basic
import ManifestModules.Yaml.Style

/-! # Values as YAML text

Collections are written in block form, two columns deeper than what holds them,
except that a list in a map stays in the column of the map. Empty collections
are written in flow form.
-/

namespace ManifestModules.Value

open Yaml

inductive YamlPlace where
  | nothing
  /-- An indicator with which the value may share a line. -/
  | indicator
  /-- A key on its own line. -/
  | key
deriving DecidableEq, Repr

namespace YamlPlace

/-- What separates a collection from what comes before it. -/
def separator : YamlPlace → List Char
  | .nothing => []
  | .indicator => [' ']
  | .key => ['\n']

/-- The column of a map after something in the column `indent`. -/
def mapColumn (indent : Nat) : YamlPlace → Nat
  | .nothing => 0
  | .indicator | .key => indent + 2

/-- The column of a list after something in the column `indent`. -/
def listColumn (indent : Nat) : YamlPlace → Nat
  | .nothing => 0
  | .indicator => indent + 2
  | .key => indent

end YamlPlace

/-- A text that ends on the line it begins on. -/
def yamlLine (place : YamlPlace) (text : List Char) : List Char :=
  (if place = .nothing then [] else [' ']) ++ text ++ ['\n']

/-- The margin of a line; the first line of a collection that shares a line has none. -/
def yamlMargin (shared : Bool) (column : Nat) : List Char :=
  if shared then [] else List.replicate column ' '

mutual

/-- The text of a value up to the end of its last line. -/
def yamlChars (indent : Nat) (place : YamlPlace) : Value → List Char
  | .null => yamlLine place "null".toList
  | .bool b => yamlLine place (if b then "true" else "false").toList
  | .number n => yamlLine place n.text.toList
  | .string s => (if place = .nothing then [] else [' ']) ++ Style.writeLine (indent + 2) s
  | .list items =>
    if items.isEmpty then yamlLine place ['[', ']']
    else place.separator ++ yamlItems (place.listColumn indent) (place ≠ .key) items
  | .map entries =>
    if entries.isEmpty then yamlLine place ['\x7b', '\x7d']
    else place.separator ++ yamlEntries (place.mapColumn indent) (place ≠ .key) entries

def yamlItems (column : Nat) (shared : Bool) : List Value → List Char
  | [] => []
  | item :: rest =>
    yamlMargin shared column ++ '-' :: item.yamlChars column .indicator
      ++ yamlItems column false rest

/-- A key that is long or has several lines gets an indicator of its own. -/
def yamlEntries (column : Nat) (shared : Bool) : List (String × Value) → List Char
  | [] => []
  | (key, value) :: rest =>
    yamlMargin shared column
      ++ (if Style.isShortKey key then
          Style.write (column + 2) key ++ ':' :: value.yamlChars column .key
        else
          '?' :: ' ' :: Style.writeLine (column + 2) key
            ++ yamlMargin false column ++ ':' :: value.yamlChars column .indicator)
      ++ yamlEntries column false rest

end

def yamlText (value : Value) : String :=
  String.ofList (value.yamlChars 0 .nothing)

end ManifestModules.Value
