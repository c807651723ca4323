import ManifestModules.Graph.Outline
import ManifestModules.Proofs.Graph.Imports
import Mathlib.Data.List.Perm.Subperm

/-!
# Outlines line by line

Every line of an outline has a place: the paths that lead to it, and a margin. The paths on a way
down through an import graph are different ones, so that there is fuel for every way and the outline
follows it to the end.
-/

namespace ManifestModules

namespace Outline

inductive Item where
  | root (path : String)
  | imported (name path : String)
  | circular
  | elided
deriving DecidableEq

structure Row where
  /-- The root and the imported paths on the lines that it hangs below, innermost first. -/
  above : List String
  margin : String
  /-- No line follows beside it. -/
  last : Bool
  item : Item
deriving DecidableEq

namespace Row

def target? (row : Row) : Option String :=
  match row.item with
  | .root path | .imported _ path => some path
  | .circular | .elided => none

/-- The number of imports that lead to a line. A remark belongs to the line that it hangs below. -/
def level (row : Row) : Nat :=
  match row.item with
  | .root _ | .imported .. => row.above.length
  | .circular | .elided => row.above.length - 1

def connector (row : Row) : String :=
  if row.last then "└── " else "├── "

def text (row : Row) : String :=
  match row.item with
  | .root path => path
  | .imported name path => row.margin ++ row.connector ++ s!"{name}: {path}"
  | .circular => row.margin ++ row.connector ++ "(circular reference)"
  | .elided => row.margin ++ row.connector ++ "…"

def deeper (row : Row) : String :=
  match row.item with
  | .root _ => ""
  | _ => row.margin ++ if row.last then "    " else "│   "

def render (rows : List Row) : String :=
  String.join (rows.map fun row => row.text ++ "\n")

end Row

mutual

def rows (above : List String) (margin : String) (last : Bool) : Outline → List Row
  | .imported name path below =>
    let row : Row := ⟨above, margin, last, .imported name path⟩
    row :: listRows (path :: above) row.deeper below
  | .circular => [⟨above, margin, last, .circular⟩]
  | .elided => [⟨above, margin, last, .elided⟩]

def listRows (above : List String) (margin : String) : List Outline → List Row
  | [] => []
  | branch :: rest => branch.rows above margin rest.isEmpty ++ listRows above margin rest

end

mutual

theorem lines_eq (above : List String) (margin : String) (last : Bool) : (branch : Outline) →
    branch.lines margin last = (branch.rows above margin last).map Row.text
  | .imported name path below => by
    rw [lines, rows, List.map_cons, listLines_eq (path :: above) _ below]
    rfl
  | .circular => rfl
  | .elided => rfl

theorem listLines_eq (above : List String) (margin : String) : (branches : List Outline) →
    listLines margin branches = (listRows above margin branches).map Row.text
  | [] => by rw [listLines, listRows, List.map_nil]
  | branch :: rest => by
    rw [listLines, listRows, List.map_append, lines_eq above margin _ branch,
      listLines_eq above margin rest]

end

end Outline

namespace Graph

open Outline

/-- The lines of the outline below a root, the root on the first one. -/
def rows (graph : Graph) (root : String) (maxDepth : Option Nat) : List Row :=
  let row : Row := ⟨[], "", true, .root root⟩
  row :: listRows [root] row.deeper (graph.branches maxDepth graph.nodes.length [root] root)

theorem outline_eq_render (graph : Graph) (root : String) (maxDepth : Option Nat) :
    graph.outline root maxDepth = Row.render (graph.rows root maxDepth) := by
  rw [outline, Outline.render, listLines_eq [root], rows, Row.render, List.map_cons, List.map_cons,
    List.map_map]
  rfl

variable {graph : Graph} {maxDepth : Option Nat} {fuel : Nat} {root path target name : String}
  {above : List String} {margin : String} {edge : String × String}

theorem mem_directImports :
    (name, target) ∈ graph.directImports path ↔ ⟨path, name, target⟩ ∈ graph.edges := by
  simp only [directImports, outgoing, List.mem_map, List.mem_filter, decide_eq_true_eq,
    Prod.mk.injEq]
  constructor
  · rintro ⟨⟨importer, name, target⟩, ⟨hedge, rfl⟩, rfl, rfl⟩
    exact hedge
  · exact fun hedge => ⟨_, ⟨hedge, rfl⟩, rfl, rfl⟩

/-! ## The branches below a path -/

theorem branches_leaf (h : graph.directImports path = []) :
    graph.branches maxDepth fuel above path = [] := by
  cases fuel <;> simp [branches, h]

theorem branches_elided (h : graph.directImports path ≠ [])
    (hdeep : maxDepth.any (· < above.length) = true) :
    graph.branches maxDepth (fuel + 1) above path = [.elided] := by
  simp [branches, h, hdeep]

def branch (graph : Graph) (maxDepth : Option Nat) (fuel : Nat) (above : List String)
    (edge : String × String) : Outline :=
  .imported edge.1 edge.2
    (if edge.2 ∈ above then [.circular]
    else graph.branches maxDepth fuel (edge.2 :: above) edge.2)

theorem branches_imports (hshallow : maxDepth.any (· < above.length) = false) :
    graph.branches maxDepth (fuel + 1) above path =
      (graph.directImports path).map (graph.branch maxDepth fuel above) := by
  by_cases h : graph.directImports path = []
  · rw [branches_leaf h, h, List.map_nil]
  · simp [branches, h, hshallow, branch]

/-- An import of one of the paths above has a remark below it. -/
theorem rows_branch_circular (last : Bool) (h : edge.2 ∈ above) :
    (graph.branch maxDepth fuel above edge).rows above margin last =
      let row : Row := ⟨above, margin, last, .imported edge.1 edge.2⟩
      [row, ⟨edge.2 :: above, row.deeper, true, .circular⟩] := by
  rw [branch, if_pos h, Outline.rows]
  rfl

theorem rows_branch (last : Bool) (h : edge.2 ∉ above) :
    (graph.branch maxDepth fuel above edge).rows above margin last =
      let row : Row := ⟨above, margin, last, .imported edge.1 edge.2⟩
      row :: listRows (edge.2 :: above) row.deeper
        (graph.branches maxDepth fuel (edge.2 :: above) edge.2) := by
  rw [branch, if_neg h, Outline.rows]

/-! ## Ways down -/

/-- A way from a root down to a path: the paths are different ones, and all but the root alone are
nodes. -/
structure Way (graph : Graph) (root : String) (way : List String) : Prop where
  nodup : way.Nodup
  bottom : way.getLast? = some root
  nodes : way = [root] ∨ way ⊆ graph.nodes

namespace Way

variable {way : List String}

theorem start (graph : Graph) (root : String) : Way graph root [root] :=
  ⟨List.nodup_singleton root, rfl, .inl rfl⟩

/-- A path that imports something is a node, and so are those on the way to it. -/
theorem subset (h : Way graph root (path :: above)) (hgraph : graph.WellFormed)
    (hedge : (name, target) ∈ graph.directImports path) : path :: above ⊆ graph.nodes := by
  rcases h.nodes with hroot | hnodes
  · have hpath := (hgraph.joins _ (mem_directImports.1 hedge)).1
    obtain ⟨rfl, rfl⟩ := List.cons.inj hroot
    simpa using hpath
  · exact hnodes

theorem push (h : Way graph root (path :: above)) (hgraph : graph.WellFormed)
    (hedge : (name, target) ∈ graph.directImports path) (hfresh : target ∉ path :: above) :
    Way graph root (target :: path :: above) := by
  have htarget := (hgraph.joins _ (mem_directImports.1 hedge)).2
  have hnodes := List.cons_subset.2 ⟨htarget, h.subset hgraph hedge⟩
  exact ⟨List.nodup_cons.2 ⟨hfresh, h.nodup⟩, by simpa using h.bottom, .inr hnodes⟩

theorem length_le (h : Way graph root way) : way.length ≤ max 1 graph.nodes.length := by
  rcases h.nodes with rfl | hnodes
  · exact Nat.le_max_left ..
  · exact Nat.le_trans (List.subperm_of_subset h.nodup hnodes).length_le (Nat.le_max_right ..)

/-- There is fuel for the imports of a path if there was fuel for every node on the way. -/
theorem fuel_pos (h : Way graph root (path :: above)) (hgraph : graph.WellFormed)
    (himports : graph.directImports path ≠ [])
    (hfuel : (path :: above).length + fuel = graph.nodes.length + 1) : 0 < fuel := by
  obtain ⟨⟨name, target⟩, hedge⟩ := List.exists_mem_of_ne_nil _ himports
  have hlength := (List.subperm_of_subset h.nodup (h.subset hgraph hedge)).length_le
  omega

end Way

end Graph

end ManifestModules
