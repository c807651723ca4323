import ManifestModules.Configuration
import ManifestModules.Graph.Module
import ManifestModules.Graph.Order
import ManifestModules.Graph.Outline
import ManifestModules.Module.Load

/-! # Overviews of imports

What a file imports is shown section by section, as an outline or as a list in
which every module comes after its imports. Nothing is evaluated. The remarks on
the imports are warnings, and those of the sections before a failure are kept.
-/

namespace ManifestModules.CommandLine

variable {m : Type → Type} [Monad m] {τ : Type}

inductive View where
  | outline (depth : Option Nat)
  | order
deriving DecidableEq, Repr

def sectionText (view : View) (module : Module τ) : Except Failure String :=
  let graph := Graph.ofModule module
  match view with
  | .outline depth => .ok (graph.outline module.path depth)
  | .order => do return String.join ((← graph.dependencyOrder).map (· ++ "\n"))

/-- The heading of a section, which it has among others only. -/
def sectionHeading (count index : Nat) (module : Module τ) : String :=
  if count > 1 then
    let tag := module.resource.tag?.getD "?"
    s!"# section {index} ({tag})\n"
  else ""

/-- The text of sections with their warnings; they are some of `count`, from place `index` on. -/
def sectionsText (view : View) (count : Nat) :
    (index : Nat) → List (Module τ) → Except Failure String × List String
  | _, [] => (.ok "", [])
  | index, module :: rest =>
    match sectionText view module with
    | .error failure => (.error failure, [])
    | .ok text =>
      let (later, warnings) := sectionsText view count (index + 1) rest
      (later.map (sectionHeading count index module ++ text ++ ·),
        module.allDiagnostics ++ warnings)

def overview (files : FileSystem m) (configuration : Configuration) (view : View)
    (path : String) : m (Except Trouble String × List String) := do
  let work : ExceptT Failure m (List (Module Unit)) :=
    configuration.withCache (Module.load files.source.cached configuration.maxImportDepth path)
  match ← (Trouble.aroundFailure s!"Failed to parse {path}" work).run with
  | .error trouble => return (.error trouble, [])
  | .ok modules =>
    let (result, warnings) := sectionsText view modules.length 0 modules
    return (result.mapError .ofFailure, warnings)

end ManifestModules.CommandLine
