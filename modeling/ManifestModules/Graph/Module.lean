import ManifestModules.Graph.Basic
import ManifestModules.Module.Basic

/-! # The graph of a module

A module and everything it imports, with one node for each path. The imports are
added depth first in the order of declaration.
-/

namespace ManifestModules.Graph

variable {τ : Type}

mutual

def addModule (graph : Graph) : Module τ → Graph
  | ⟨path, imports, _, _, _, _⟩ => addImports graph path imports

/-- Adds the imports of a path, each followed by what it imports itself. -/
def addImports (graph : Graph) (importer : String) : List (Import (Module τ)) → Graph
  | [] => graph
  | ⟨name, path, _, _, module⟩ :: rest =>
    addImports (addModule (graph.addImport importer name path) module) importer rest

end

def ofModule (root : Module τ) : Graph :=
  addModule (empty.addNode root.path) root

end ManifestModules.Graph
