/-! # Import graphs

The nodes of an import graph are paths, and an edge tells that one path imports
another one under a name. Nodes and edges keep the order in which they were
added; adding an import again changes nothing.
-/

namespace ManifestModules

structure ImportEdge where
  importer : String
  name : String
  path : String
deriving DecidableEq, Repr

structure Graph where
  nodes : List String
  edges : List ImportEdge
deriving DecidableEq, Repr

namespace Graph

def empty : Graph := ⟨[], []⟩

def addNode (graph : Graph) (path : String) : Graph :=
  if path ∈ graph.nodes then graph else { graph with nodes := graph.nodes ++ [path] }

def addEdge (graph : Graph) (edge : ImportEdge) : Graph :=
  if edge ∈ graph.edges then graph else { graph with edges := graph.edges ++ [edge] }

def addImport (graph : Graph) (importer name path : String) : Graph :=
  ((graph.addNode importer).addNode path).addEdge ⟨importer, name, path⟩

def outgoing (graph : Graph) (path : String) : List ImportEdge :=
  graph.edges.filter (·.importer = path)

def incoming (graph : Graph) (path : String) : List ImportEdge :=
  graph.edges.filter (·.path = path)

/-- The names and paths that a path imports, in the order of their addition. -/
def directImports (graph : Graph) (path : String) : List (String × String) :=
  (graph.outgoing path).map fun edge => (edge.name, edge.path)

end Graph

end ManifestModules
