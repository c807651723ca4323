import ManifestModules.Value.Json
import ManifestModules.Text.Quoted

/-! # Values for display

A string is shown quoted with its invisible characters spelled out, a number in
the document's own notation, and a list or map as compact JSON.
-/

namespace ManifestModules.Value

def display : Value → String
  | .null => "null"
  | .bool b => if b then "true" else "false"
  | .number n => n.text
  | .string s => Text.Quoted.quote s
  | .list items => (Value.list items).compactJson
  | .map entries => (Value.map entries).compactJson

end ManifestModules.Value
