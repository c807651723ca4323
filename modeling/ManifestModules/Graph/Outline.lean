import ManifestModules.Graph.Basic

/-! # Outlines

An outline shows what lies below a path of an import graph, and every import has
one line. It stops at a path that is already above, and at a greatest depth.
-/

namespace ManifestModules

inductive Outline where
  | imported (name path : String) (below : List Outline)
  /-- The path on the line above is one of those above that line. -/
  | circular
  /-- The imports here lie deeper than is shown. -/
  | elided
deriving Repr

namespace Outline

def label : Outline → String
  | .imported name path _ => s!"{name}: {path}"
  | .circular => "(circular reference)"
  | .elided => "…"

mutual

/-- The lines of a branch behind a margin; `last` tells that no branch follows beside it. -/
def lines (margin : String) (last : Bool) : Outline → List String
  | .imported name path below =>
    let connector := if last then "└── " else "├── "
    let deeper := if last then "    " else "│   "
    (margin ++ connector ++ label (.imported name path below))
      :: listLines (margin ++ deeper) below
  | .circular => [margin ++ (if last then "└── " else "├── ") ++ label .circular]
  | .elided => [margin ++ (if last then "└── " else "├── ") ++ label .elided]

def listLines (margin : String) : List Outline → List String
  | [] => []
  | branch :: rest => branch.lines margin rest.isEmpty ++ listLines margin rest

end

def render (root : String) (branches : List Outline) : String :=
  String.join ((root :: listLines "" branches).map (· ++ "\n"))

end Outline

namespace Graph

/-- The branches below a path. `ancestors` holds the paths on the way to it, itself included;
they are distinct, so that the number of nodes is enough fuel. -/
def branches (graph : Graph) (maxDepth : Option Nat) :
    (fuel : Nat) → (ancestors : List String) → String → List Outline
  | 0, _, _ => []
  | fuel + 1, ancestors, path =>
    let imports := graph.directImports path
    if imports.isEmpty then []
    else if maxDepth.any (· < ancestors.length) then [.elided]
    else
      imports.map fun (name, target) =>
        .imported name target
          (if target ∈ ancestors then [.circular]
          else graph.branches maxDepth fuel (target :: ancestors) target)

/-- The outline below a root, at most `maxDepth` levels deep. -/
def outline (graph : Graph) (root : String) (maxDepth : Option Nat) : String :=
  Outline.render root (graph.branches maxDepth graph.nodes.length [root] root)

end Graph

end ManifestModules
