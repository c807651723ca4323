import ManifestModules.Failure
import ManifestModules.Value.Basic

/-! # Shape of a section

A section declares imports and parameters, and holds exactly one resource beside
them. Its declarations are checked in this order: imports, parameters, resource.
-/

namespace ManifestModules

/-- An import as it is declared: the path is not resolved yet, and the parameters may hold
template holes. -/
structure ImportDeclaration where
  name : String
  path : String
  params : Entries
deriving DecidableEq, Repr

structure Parameter where
  description : Option String
  /-- The value that is used when none is given. -/
  default : Option Value
deriving DecidableEq, Repr

structure Section where
  imports : List ImportDeclaration
  params : Table Parameter
  /-- The tag of the resource with its body. -/
  resource : Entries
deriving DecidableEq, Repr

inductive ImportsFault where
  | notAList (found : String)
  | notAMap (found : String)
  | emptyDeclaration
  | tooManyKeys
  | paramsNotAMap (found : String)
  | twoNames (first second : String)
  | pathNotAString (name found : String)
  | noName
  | duplicateName (name : String)
deriving DecidableEq, Repr

def ImportsFault.message : ImportsFault → String
  | .notAList found => s!"'imports' must be a list, found {found}"
  | .notAMap found => s!"import declaration must be a map, found {found}"
  | .emptyDeclaration => "empty import declaration"
  | .tooManyKeys => "import declaration should have only a name: path pair and optional params"
  | .paramsNotAMap found => s!"params of an import must be a map, found {found}"
  | .twoNames first second => s!"import declaration has two names ('{first}' and '{second}')"
  | .pathNotAString name found => s!"import path for '{name}' must be a string, found {found}"
  | .noName => "expected an import name and path"
  | .duplicateName name => s!"duplicate import name '{name}'"

inductive ParamsFault where
  | notAList (found : String)
  | notADeclaration (found : String)
  | notOneName
  | descriptionNotAString (name found : String)
  | duplicateName (name : String)
deriving DecidableEq, Repr

def ParamsFault.message : ParamsFault → String
  | .notAList found => s!"'params' must be a list, found {found}"
  | .notADeclaration found => s!"parameter declaration must be a name or a map, found {found}"
  | .notOneName =>
    "parameter declaration must have exactly one name: description entry besides 'default'"
  | .descriptionNotAString name found =>
    s!"description of parameter '{name}' must be a string, found {found}"
  | .duplicateName name => s!"duplicate parameter '{name}'"

namespace Section

def importsKey : String := "imports"
def paramsKey : String := "params"
def defaultKey : String := "default"

/-- The name and path of an import, and its parameters, as far as its keys have been read. -/
structure PartialImport where
  target : Option (String × String)
  params : Entries

def PartialImport.addKey (found : PartialImport) (entry : String × Value) :
    Except ImportsFault PartialImport :=
  let (key, value) := entry
  if key = paramsKey then
    match value with
    | .map params => .ok { found with params }
    | .null => .ok found
    | other => .error (.paramsNotAMap other.typeName)
  else
    match found.target, value with
    | some (name, _), _ => .error (.twoNames name key)
    | none, .string path => .ok { found with target := some (key, path) }
    | none, other => .error (.pathNotAString key other.typeName)

def readImport : Value → Except ImportsFault ImportDeclaration
  | .map entries => do
    if entries.isEmpty then throw .emptyDeclaration
    if entries.length > 2 then throw .tooManyKeys
    let found ← entries.foldlM PartialImport.addKey ⟨none, []⟩
    match found.target with
    | some (name, path) => return ⟨name, path, found.params⟩
    | none => throw .noName
  | other => .error (.notAMap other.typeName)

/-- Reads the declarations after those in `before`, whose names may not come again. -/
def readImportList (before : List ImportDeclaration) :
    List Value → Except ImportsFault (List ImportDeclaration)
  | [] => .ok before
  | value :: rest => do
    let declaration ← readImport value
    if before.any (·.name = declaration.name) then throw (.duplicateName declaration.name)
    readImportList (before ++ [declaration]) rest

def readImports : Option Value → Except ImportsFault (List ImportDeclaration)
  | none | some .null => .ok []
  | some (.list items) => readImportList [] items
  | some other => .error (.notAList other.typeName)

/-- Reads a parameter declaration: a name alone, or a name with a description beside which a
default may stand. -/
def readParam : Value → Except ParamsFault (String × Parameter)
  | .string name => .ok (name, ⟨none, none⟩)
  | .map entries =>
    match Table.without entries defaultKey with
    | [(name, description)] =>
      let default := entries.lookup defaultKey
      match description with
      | .string text => .ok (name, ⟨some text, default⟩)
      | .null => .ok (name, ⟨none, default⟩)
      | other => .error (.descriptionNotAString name other.typeName)
    | _ => .error .notOneName
  | other => .error (.notADeclaration other.typeName)

def readParamList (before : Table Parameter) :
    List Value → Except ParamsFault (Table Parameter)
  | [] => .ok before
  | value :: rest => do
    let (name, parameter) ← readParam value
    if (before.lookup name).isSome then throw (.duplicateName name)
    readParamList (Table.put before name parameter) rest

def readParams : Option Value → Except ParamsFault (Table Parameter)
  | none | some .null => .ok []
  | some (.list items) => readParamList [] items
  | some other => .error (.notAList other.typeName)

def describeResources (resources : Entries) : String :=
  if resources.isEmpty then "no resources"
  else
    let names := (Table.keys resources).map fun key => s!"'{key}'"
    let listed := ", ".intercalate names
    s!"{names.length} resources ({listed})"

/-- Reads the declarations in a section of the module at `path`. -/
def ofEntries (path : String) (entries : Entries) : Except Failure Section := do
  let imports ← (readImports (entries.lookup importsKey)).mapError
    fun fault => Failure.invalidImports path fault.message
  let params ← (readParams (entries.lookup paramsKey)).mapError
    fun fault => Failure.invalidParams path fault.message
  let resource := Table.without (Table.without entries importsKey) paramsKey
  if resource.length = 1 then return ⟨imports, params, resource⟩
  else throw (.invalidExport path (describeResources resource))

end Section

end ManifestModules
