import ManifestModules.Configuration
import ManifestModules.Module.Evaluate
import ManifestModules.Value.Finite
import ManifestModules.Value.Json
import ManifestModules.Value.Yaml

/-! # Evaluating files

Every section of every file is evaluated with the same parameters. The resources
are written in order, as YAML documents or as one JSON list. The files share a
cache, so that no file is read twice.
-/

namespace ManifestModules.CommandLine

variable {m : Type → Type} [Monad m]

/-- The conversion of resources, which never fails. -/
def toFinite : Module.Converter m Value := fun raw => return .ok (Value.finite (.map raw))

def evaluateFile (source : Source m) (limit : Nat) (params : Entries) (file : String) :
    ExceptT Trouble m (List Value) := do
  let modules ← Trouble.aroundFailure s!"Failed to evaluate {file}" do
    let modules ← Module.load source limit file
    Module.evaluateAll toFinite params modules
  modules.mapM fun module =>
    Trouble.aroundFailure s!"Failed to convert a resource of {module.path}"
      (ExceptT.mk (pure module.typedResult))

def evaluateFiles (source : Source m) (limit : Nat) (params : Entries) :
    (files : List String) → ExceptT Trouble m (List Value)
  | [] => return []
  | file :: rest => do
    let resources ← evaluateFile source limit params file
    return resources ++ (← evaluateFiles source limit params rest)

def resourcesText (format : OutputFormat) (resources : List Value) : String :=
  match format with
  | .yaml => "---\n".intercalate (resources.map (·.yamlText))
  | .json => (Value.list resources).indentedJson "" ++ "\n"

/-- The output for files. Of parameters with the same name the last one counts. -/
def evaluationText (files : FileSystem m) (configuration : Configuration)
    (params : List (String × Value)) (output : Option OutputFormat) (paths : List String) :
    ExceptT Trouble m String :=
  configuration.withCache do
    let resources ← evaluateFiles files.source.cached configuration.maxImportDepth
      (Table.ofPairs params) paths
    return resourcesText (output.getD configuration.output) resources

end ManifestModules.CommandLine
