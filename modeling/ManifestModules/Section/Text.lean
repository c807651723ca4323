import ManifestModules.Failure
import ManifestModules.Value.Data

/-! # Sections of a module file

A module file is a sequence of sections. Empty ones are passed over, and every
other one must be a map. The first section that is wrong makes the whole file
fail, and is named by its place among all sections.
-/

namespace ManifestModules

/-- The map in a section; none if the section is empty. -/
def readSection (path : String) (index : Nat) (data : Except Yaml.Problem Yaml.Data) :
    Except Failure (Option Entries) :=
  match data with
  | .error problem =>
    .error (.readFailed path s!"invalid YAML in document {index}: {problem.message}")
  | .ok data =>
    match Value.ofData data with
    | .error key => .error (.invalidMapKey path index key.found)
    | .ok .null => .ok none
    | .ok (.map entries) => .ok (some entries)
    | .ok other => .error (.invalidDocument path index other.typeName)

def readSectionsFrom (path : String) :
    (index : Nat) → List (Except Yaml.Problem Yaml.Data) → Except Failure (List Entries)
  | _, [] => .ok []
  | index, data :: rest => do
    let entries ← readSection path index data
    return entries.toList ++ (← readSectionsFrom path (index + 1) rest)

def readSections (path : String) (sections : List (Except Yaml.Problem Yaml.Data)) :
    Except Failure (List Entries) :=
  readSectionsFrom path 0 sections

def parseSections (path text : String) : Except Failure (List Entries) :=
  readSections path (Yaml.sections text)

end ManifestModules
