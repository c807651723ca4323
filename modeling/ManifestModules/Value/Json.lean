import ManifestModules.Value.Basic
import ManifestModules.Text.Json

/-! # Values as JSON text

The compact form has no space at all; the indented form puts each item on a
line of its own, two spaces deeper than its container. Floats that JSON cannot
hold are written as null.
-/

namespace ManifestModules.Value

mutual

def compactJson : Value → String
  | .null => "null"
  | .bool b => if b then "true" else "false"
  | .number n => n.jsonText
  | .string s => Text.Json.quote s
  | .list items => "[" ++ ",".intercalate (compactItems items) ++ "]"
  | .map entries => "\x7b" ++ ",".intercalate (compactEntries entries) ++ "\x7d"

def compactItems : List Value → List String
  | [] => []
  | item :: rest => item.compactJson :: compactItems rest

def compactEntries : List (String × Value) → List String
  | [] => []
  | (key, value) :: rest => (Text.Json.quote key ++ ":" ++ value.compactJson) :: compactEntries rest

end

/-- The items of a container, one a line, between its two brackets. -/
def indentedBlock (indent opening closing : String) (items : List String) : String :=
  match items with
  | [] => opening ++ closing
  | _ =>
    let deeper := indent ++ "  "
    opening ++ "\n" ++ ",\n".intercalate (items.map (deeper ++ ·)) ++ "\n" ++ indent ++ closing

mutual

/-- The JSON text of a value whose first line is already indented by `indent`. -/
def indentedJson (indent : String) : Value → String
  | .list items => indentedBlock indent "[" "]" (indentedItems (indent ++ "  ") items)
  | .map entries => indentedBlock indent "\x7b" "\x7d" (indentedEntries (indent ++ "  ") entries)
  | .null => "null"
  | .bool b => if b then "true" else "false"
  | .number n => n.jsonText
  | .string s => Text.Json.quote s

def indentedItems (indent : String) : List Value → List String
  | [] => []
  | item :: rest => item.indentedJson indent :: indentedItems indent rest

def indentedEntries (indent : String) : List (String × Value) → List String
  | [] => []
  | (key, value) :: rest =>
    (Text.Json.quote key ++ ": " ++ value.indentedJson indent) :: indentedEntries indent rest

end

end ManifestModules.Value
