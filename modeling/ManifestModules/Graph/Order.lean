import ManifestModules.Failure
import ManifestModules.Graph.Basic

/-! # Dependency order

The dependency order is the order in which a depth-first walk finishes the
nodes: a node comes after everything it imports. The walk begins at the nodes in
their order of addition and follows edges in theirs. A graph with a cycle has no
such order, which shows when some node is finished before something it imports.
-/

namespace ManifestModules.Graph

structure Walk where
  discovered : List String
  /-- The nodes whose imports are all done, in the order of finishing. -/
  finished : List String

/-- Walks to a node unless it has been discovered. A node that imports itself ends the walk with
its name. Each level discovers a node, so their number is enough fuel. -/
def visit (graph : Graph) : (fuel : Nat) → Walk → String → Except String Walk
  | 0, walk, _ => .ok walk
  | fuel + 1, walk, node =>
    if node ∈ walk.discovered then .ok walk
    else
      let targets := (graph.outgoing node).map (·.path)
      if node ∈ targets then .error node
      else do
        let begun := { walk with discovered := node :: walk.discovered }
        let done ← targets.foldlM (visit graph fuel) begun
        return { done with finished := done.finished ++ [node] }

def finishOrder (graph : Graph) : Except String (List String) := do
  let walk ← graph.nodes.foldlM (visit graph graph.nodes.length) ⟨[], []⟩
  return walk.finished

/-- The first node, among those that follow the ones in `passed`, that has an importer not among
them or itself; its importer on the earliest edge is the answer. -/
def lateImporter? (graph : Graph) (passed : List String) : List String → Option String
  | [] => none
  | node :: rest =>
    match (graph.incoming node).find? (·.importer ∉ node :: passed) with
    | some edge => some edge.importer
    | none => lateImporter? graph (node :: passed) rest

def cycleThrough (node : String) : Failure :=
  .cyclicImport s!"cycle through {node}"

/-- All nodes, each after those that it imports. -/
def dependencyOrder (graph : Graph) : Except Failure (List String) :=
  match graph.finishOrder with
  | .error node => .error (cycleThrough node)
  | .ok order =>
    match graph.lateImporter? [] order.reverse with
    | some node => .error (cycleThrough node)
    | none => .ok order

end ManifestModules.Graph
