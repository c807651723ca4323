import ManifestModules.Proofs.Graph.Imports
import ManifestModules.Proofs.Graph.Order
import Mathlib.Data.List.Basic

/-!
# Dependency orders and cycles

A graph that imports were added to in any way has a dependency order exactly if it has no cycle. The
order that is found then is one, and otherwise the path that is named lies on a cycle: it is
finished before something that it imports, which must therefore lead back to it.
-/

namespace ManifestModules.Graph

open Relation

variable {graph : Graph} {node importer : String} {order nodes passed before after : List String}

/-! ## Finished nodes do not import themselves -/

namespace Ordered

/-- What a node leads to stands before it. -/
theorem mem_of_transGen (h : graph.Ordered order) {target : String}
    (hsplit : order = before ++ node :: after) (hleads : TransGen graph.Links node target) :
    target ∈ before := by
  induction hleads with
  | single hlinks => exact h.after before node after hsplit _ hlinks
  | tail _ hlinks ih =>
    obtain ⟨front, back, rfl⟩ := List.append_of_mem ih
    rw [List.append_assoc] at hsplit
    exact List.mem_append_left _ (h.after front _ _ hsplit _ hlinks)

theorem acyclic (h : graph.Ordered order) (hgraph : graph.WellFormed) (node : String) :
    ¬ TransGen graph.Links node node := by
  intro hcycle
  have hmem : node ∈ order := by
    obtain ⟨target, hlinks, -⟩ := TransGen.head'_iff.1 hcycle
    exact (h.complete node).2 (hgraph.nodes_of_links hlinks).1
  obtain ⟨before, after, hsplit⟩ := List.append_of_mem hmem
  have hbefore := h.mem_of_transGen hsplit hcycle
  have hnodup := h.nodup
  rw [hsplit, List.nodup_middle, List.nodup_cons, List.mem_append, not_or] at hnodup
  exact hnodup.1.1 hbefore

end Ordered

/-! ## The second search

Against the edges one finds, from each node in turn, the nodes that lead to it and have not been
found before. The first node from which there are any shares a cycle with them, and the late
importer is the one that is found next to it. -/

structure Search where
  discovered : List String
  stack : List String

/-- The next node of a search. Its importers come next, those of earlier edges first. -/
def nextFound? (graph : Graph) (discovered : List String) :
    (stack : List String) → Option (String × Search)
  | [] => none
  | node :: stack =>
    if node ∈ discovered then nextFound? graph discovered stack
    else
      let importers := (graph.incoming node).map (·.importer)
      some (node, ⟨node :: discovered, importers.filter (· ∉ node :: discovered) ++ stack⟩)

/-- The second node found from a single start, for the first of the starts that has one. -/
def secondFound? (graph : Graph) (discovered : List String) :
    (starts : List String) → Option String
  | [] => none
  | start :: rest =>
    match graph.nextFound? discovered [start] with
    | none => secondFound? graph discovered rest
    | some (_, search) =>
      match graph.nextFound? search.discovered search.stack with
      | some (second, _) => some second
      | none => secondFound? graph search.discovered rest

/-- Of nodes that are all new the first is found next. -/
theorem nextFound?_of_new (graph : Graph) {discovered stack : List String}
    (h : ∀ node ∈ stack, node ∉ discovered) :
    (graph.nextFound? discovered stack).map Prod.fst = stack.head? := by
  cases stack with
  | nil => rfl
  | cons node stack => simp [nextFound?, h node (List.mem_cons_self ..)]

theorem secondFound?_eq_lateImporter? (graph : Graph) (hnodup : nodes.Nodup)
    (hnew : ∀ node ∈ nodes, node ∉ passed) :
    graph.secondFound? passed nodes = graph.lateImporter? passed nodes := by
  induction nodes generalizing passed with
  | nil => rfl
  | cons node rest ih =>
    obtain ⟨hnode, hrest⟩ := List.nodup_cons.1 hnodup
    let importers := (graph.incoming node).map (·.importer)
    have hfirst : graph.nextFound? passed [node] =
        some (node, ⟨node :: passed, importers.filter (· ∉ node :: passed)⟩) := by
      simp [nextFound?, hnew node (List.mem_cons_self ..), importers]
    have hfresh : ∀ other ∈ importers.filter (· ∉ node :: passed), other ∉ node :: passed :=
      fun other hother => by simpa using (List.mem_filter.1 hother).2
    have hsecond := nextFound?_of_new graph hfresh
    rw [List.head?_filter, List.find?_map] at hsecond
    rw [secondFound?, hfirst, lateImporter?]
    cases hfind : (graph.incoming node).find? (·.importer ∉ node :: passed) with
    | some edge =>
      have hfound := hsecond.trans (congrArg (Option.map (·.importer)) hfind)
      obtain ⟨⟨second, search⟩, hsearch, rfl⟩ := Option.map_eq_some_iff.1 hfound
      simp only [hsearch]
    | none =>
      have hfound := hsecond.trans (congrArg (Option.map (·.importer)) hfind)
      simp only [Option.map_eq_none_iff.1 hfound]
      apply ih hrest
      intro other hother
      rw [List.mem_cons, not_or]
      exact ⟨fun heq => hnode (heq ▸ hother), hnew other (List.mem_cons_of_mem _ hother)⟩

/-- The two searches of a dependency order. -/
theorem dependencyOrder_eq_secondFound? (hgraph : graph.WellFormed) :
    graph.dependencyOrder =
      match graph.finishOrder with
      | .error node => .error (cycleThrough node)
      | .ok order =>
        match graph.secondFound? [] order.reverse with
        | some node => .error (cycleThrough node)
        | none => .ok order := by
  have hspec := finishOrder_spec hgraph
  rw [dependencyOrder]
  cases hrun : graph.finishOrder with
  | error node => rfl
  | ok order =>
    rw [hrun] at hspec
    have hnodup : order.reverse.Nodup := List.nodup_reverse.2 hspec.1
    have hsearch := secondFound?_eq_lateImporter? graph hnodup fun _ _ => List.not_mem_nil
    cases hlate : graph.lateImporter? [] order.reverse <;> simp only [hsearch, hlate]

/-! ## Graphs that imports are added to -/

example : (empty.addAll [⟨"a", "b", "b"⟩, ⟨"b", "c", "c"⟩, ⟨"c", "b", "b"⟩]).dependencyOrder =
    .error (cycleThrough "c") := by decide

end ManifestModules.Graph
