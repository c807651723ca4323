import ManifestModules.Graph.Module
import ManifestModules.Proofs.Graph.Walk
import ManifestModules.Proofs.Module.Tree

/-!
# Graphs of imports

A graph that imports are added to has just these as its edges, and their ends as its nodes. The
graph of a module is made from the imports in its tree.
-/

namespace ManifestModules.Graph

variable {graph : Graph} {path node : String} {edge edge' : ImportEdge} {edges : List ImportEdge}

def addAll (graph : Graph) (edges : List ImportEdge) : Graph :=
  edges.foldl (fun graph edge => graph.addImport edge.importer edge.name edge.path) graph

@[simp] theorem mem_nodes_addNode : node ∈ (graph.addNode path).nodes ↔
    node ∈ graph.nodes ∨ node = path := by
  rw [addNode]
  split_ifs with h
  · exact ⟨.inl, fun hnode => hnode.elim id fun heq => heq ▸ h⟩
  · simp

@[simp] theorem edges_addNode : (graph.addNode path).edges = graph.edges := by
  rw [addNode]
  split_ifs <;> rfl

@[simp] theorem nodes_addEdge : (graph.addEdge edge).nodes = graph.nodes := by
  rw [addEdge]
  split_ifs <;> rfl

@[simp] theorem mem_edges_addEdge : edge' ∈ (graph.addEdge edge).edges ↔
    edge' ∈ graph.edges ∨ edge' = edge := by
  rw [addEdge]
  split_ifs with h
  · exact ⟨.inl, fun hedge => hedge.elim id fun heq => heq ▸ h⟩
  · simp

theorem mem_nodes_addImport :
    node ∈ (graph.addImport edge.importer edge.name edge.path).nodes ↔
      node ∈ graph.nodes ∨ node = edge.importer ∨ node = edge.path := by
  simp [addImport, or_assoc]

theorem mem_edges_addImport :
    edge' ∈ (graph.addImport edge.importer edge.name edge.path).edges ↔
      edge' ∈ graph.edges ∨ edge' = edge := by
  simp [addImport]

theorem mem_edges_addAll : edge ∈ (graph.addAll edges).edges ↔
    edge ∈ graph.edges ∨ edge ∈ edges := by
  induction edges generalizing graph with
  | nil => simp [addAll]
  | cons first rest ih =>
    change edge ∈ ((graph.addImport first.importer first.name first.path).addAll rest).edges ↔ _
    rw [ih, mem_edges_addImport, List.mem_cons, or_assoc]

theorem mem_nodes_addAll : node ∈ (graph.addAll edges).nodes ↔
    node ∈ graph.nodes ∨ ∃ edge ∈ edges, node = edge.importer ∨ node = edge.path := by
  induction edges generalizing graph with
  | nil => simp [addAll]
  | cons first rest ih =>
    change node ∈ ((graph.addImport first.importer first.name first.path).addAll rest).nodes ↔ _
    rw [ih, mem_nodes_addImport, or_assoc]
    simp

theorem addAll_append (edges more : List ImportEdge) :
    graph.addAll (edges ++ more) = (graph.addAll edges).addAll more :=
  List.foldl_append

namespace WellFormed

theorem empty : WellFormed .empty :=
  ⟨List.nodup_nil, by simp [Graph.empty]⟩

theorem addNode (h : graph.WellFormed) (path : String) : (graph.addNode path).WellFormed := by
  refine ⟨?_, fun edge hedge => ?_⟩
  · rw [Graph.addNode]
    split_ifs with hpath
    · exact h.nodup
    · simpa using h.nodup.concat hpath
  · rw [edges_addNode] at hedge
    obtain ⟨himporter, htarget⟩ := h.joins edge hedge
    exact ⟨mem_nodes_addNode.2 (.inl himporter), mem_nodes_addNode.2 (.inl htarget)⟩

theorem addEdge (h : graph.WellFormed)
    (hjoins : edge.importer ∈ graph.nodes ∧ edge.path ∈ graph.nodes) :
    (graph.addEdge edge).WellFormed := by
  refine ⟨by simpa using h.nodup, fun other hother => ?_⟩
  rw [nodes_addEdge]
  rcases mem_edges_addEdge.1 hother with hother | rfl
  · exact h.joins other hother
  · exact hjoins

theorem addAll (h : graph.WellFormed) (edges : List ImportEdge) :
    (graph.addAll edges).WellFormed := by
  induction edges generalizing graph with
  | nil => exact h
  | cons first rest ih =>
    apply ih
    apply addEdge
    · exact (h.addNode first.importer).addNode first.path
    · simp

end WellFormed

section

variable {τ : Type}

mutual

/-- All imports in a tree, depth first in the order of declaration. -/
def moduleEdges : Module τ → List ImportEdge
  | ⟨path, imports, _, _, _, _⟩ => importEdges path imports

def importEdges (importer : String) : List (Import (Module τ)) → List ImportEdge
  | [] => []
  | ⟨name, path, _, _, module⟩ :: rest =>
    ⟨importer, name, path⟩ :: moduleEdges module ++ importEdges importer rest

end

mutual

theorem addModule_eq (graph : Graph) :
    (module : Module τ) → addModule graph module = graph.addAll (moduleEdges module)
  | ⟨path, imports, _, _, _, _⟩ => by
    rw [addModule, moduleEdges]
    exact addImports_eq graph path imports

theorem addImports_eq (graph : Graph) (importer : String) : (imports : List (Import (Module τ))) →
    addImports graph importer imports = graph.addAll (importEdges importer imports)
  | [] => by
    rw [addImports, importEdges]
    rfl
  | ⟨name, path, _, _, module⟩ :: rest => by
    rw [addImports, importEdges, addImports_eq _ importer rest, addModule_eq _ module,
      addAll_append]
    rfl

end

theorem mem_importEdges {importer : String} {imports : List (Import (Module τ))} :
    edge ∈ importEdges importer imports ↔ ∃ site ∈ imports,
      edge = ⟨importer, site.name, site.path⟩ ∨ edge ∈ moduleEdges site.module := by
  induction imports with
  | nil => simp [importEdges]
  | cons site rest ih =>
    rw [importEdges, List.cons_append, List.mem_cons, List.mem_append, ih]
    simp [or_assoc]

/-- Every module in a tree declares its imports. -/
theorem mem_moduleEdges (module : Module τ) : edge ∈ moduleEdges module ↔
    ∃ inner, module.Contains inner ∧ ∃ site ∈ inner.imports,
      edge = ⟨inner.path, site.name, site.path⟩ := by
  induction module using Module.induction with
  | step module ih =>
    have hedges : moduleEdges module = importEdges module.path module.imports := by
      rcases module with ⟨path, imports, params, evaluated, resource, diagnostics⟩
      rw [moduleEdges]
    rw [hedges, mem_importEdges]
    constructor
    · rintro ⟨site, hsite, rfl | hbelow⟩
      · exact ⟨module, .root, site, hsite, rfl⟩
      · obtain ⟨inner, hinner, found⟩ := (ih site hsite).1 hbelow
        exact ⟨inner, .imported hsite hinner, found⟩
    · rintro ⟨inner, hinner, found⟩
      cases hinner with
      | root =>
        obtain ⟨site, hsite, rfl⟩ := found
        exact ⟨site, hsite, .inl rfl⟩
      | imported hsite hinner => exact ⟨_, hsite, .inr ((ih _ hsite).2 ⟨inner, hinner, found⟩)⟩

variable {root : Module τ}

theorem ofModule_eq : ofModule root = (empty.addNode root.path).addAll (moduleEdges root) :=
  addModule_eq _ root

theorem wellFormed_ofModule : (ofModule root).WellFormed := by
  rw [ofModule_eq]
  exact (WellFormed.empty.addNode root.path).addAll _

/-- A path imports another one in the graph if some module in the tree does. -/
theorem links_ofModule {target : String} : (ofModule root).Links path target ↔
    ∃ inner, root.Contains inner ∧ inner.path = path ∧
      ∃ site ∈ inner.imports, site.path = target := by
  simp only [Links, ofModule_eq, mem_edges_addAll, edges_addNode, mem_moduleEdges]
  simp only [empty, List.not_mem_nil, false_or]
  constructor
  · rintro ⟨edge, ⟨inner, hinner, site, hsite, rfl⟩, rfl, rfl⟩
    exact ⟨inner, hinner, rfl, site, hsite, rfl⟩
  · rintro ⟨inner, hinner, rfl, site, hsite, rfl⟩
    exact ⟨_, ⟨inner, hinner, site, hsite, rfl⟩, rfl, rfl⟩

end

end ManifestModules.Graph
