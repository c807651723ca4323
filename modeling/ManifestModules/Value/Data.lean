import ManifestModules.Value.Basic
import ManifestModules.Yaml.Data

/-! # Values of YAML data

Tags are dropped, and scalar keys become their text. Null and collections have
no text that could serve as a key.
-/

namespace ManifestModules

open Yaml (Data)

/-- A key that has no text; `found` is the type of the key. -/
structure NonScalarKey where
  found : String
deriving DecidableEq, Repr

def NonScalarKey.message (fault : NonScalarKey) : String :=
  s!"map keys must be strings, numbers or bools, found a {fault.found} key"

namespace Value

def keyText : Data → Except NonScalarKey String
  | .string s => .ok s
  | .number n => .ok n.label
  | .bool b => .ok (if b then "true" else "false")
  | .tagged _ data => keyText data
  | .null => .error ⟨"null"⟩
  | .sequence _ => .error ⟨"list"⟩
  | .mapping _ => .error ⟨"map"⟩

mutual

/-- The value of the data. Of two keys with the same text the later one counts. -/
def ofData : Data → Except NonScalarKey Value
  | .null => .ok .null
  | .bool b => .ok (.bool b)
  | .number n => .ok (.number n)
  | .string s => .ok (.string s)
  | .sequence items => do return .list (← ofDataItems items)
  | .mapping entries => do return .map (Table.ofPairs (← ofDataEntries entries))
  | .tagged _ data => ofData data

def ofDataItems : List Data → Except NonScalarKey (List Value)
  | [] => .ok []
  | item :: rest => do
    let value ← ofData item
    return value :: (← ofDataItems rest)

/-- A key is looked at before its value. -/
def ofDataEntries : List (Data × Data) → Except NonScalarKey (List (String × Value))
  | [] => .ok []
  | (key, data) :: rest => do
    let text ← keyText key
    let value ← ofData data
    return (text, value) :: (← ofDataEntries rest)

end

mutual

def toData : Value → Data
  | .null => .null
  | .bool b => .bool b
  | .number n => .number n
  | .string s => .string s
  | .list items => .sequence (toDataItems items)
  | .map entries => .mapping (toDataEntries entries)

def toDataItems : List Value → List Data
  | [] => []
  | item :: rest => item.toData :: toDataItems rest

def toDataEntries : List (String × Value) → List (Data × Data)
  | [] => []
  | (key, value) :: rest => (.string key, value.toData) :: toDataEntries rest

end

end Value

inductive ValueFault where
  | yaml (problem : Yaml.Problem)
  | key (fault : NonScalarKey)
deriving DecidableEq, Repr

def ValueFault.message : ValueFault → String
  | .yaml problem => problem.message
  | .key fault => fault.message

def Value.ofText (text : String) : Except ValueFault Value :=
  match Yaml.sections text with
  | [.ok data] => (ofData data).mapError .key
  | [.error problem] => .error (.yaml problem)
  | _ => .error (.yaml .severalDocuments)

end ManifestModules
