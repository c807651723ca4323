import ManifestModules.Proofs.Graph.Edges
import ManifestModules.Proofs.Table
import Mathlib.Data.Finset.Card

/-!
# Graphs kept by positions

A graph can be kept with a number for each path, the position at which the path was added. A table
leads from the paths to their positions, and an edge joins two positions. Adding imports keeps the
table and the list of paths inverse to each other, so that the store shows the same graph, whose
nodes and edges are just what was added, without repetitions and in the order of addition.
-/

namespace ManifestModules.Graph

structure Link where
  source : Nat
  name : String
  target : Nat
deriving DecidableEq

structure Store where
  /-- The path at each position. -/
  labels : List String
  positions : Table Nat
  links : List Link

namespace Store

def empty : Store := ⟨[], [], []⟩

/-- The position of a path, which is added at the end if it is new. -/
def place (store : Store) (path : String) : Nat × Store :=
  match store.positions.lookup path with
  | some position => (position, store)
  | none => (store.labels.length, { store with
      labels := store.labels ++ [path],
      positions := Table.put store.positions path store.labels.length })

def join (store : Store) (link : Link) : Store :=
  if store.links.any fun other =>
      other.source = link.source ∧ other.target = link.target ∧ other.name = link.name then store
  else { store with links := store.links ++ [link] }

def addImport (store : Store) (importer name path : String) : Store :=
  let (source, store) := store.place importer
  let (target, store) := store.place path
  store.join ⟨source, name, target⟩

def addAll (store : Store) (edges : List ImportEdge) : Store :=
  edges.foldl (fun store edge => store.addImport edge.importer edge.name edge.path) store

/-- The names and paths that a path imports; there are none for an unknown path. -/
def directImports (store : Store) (path : String) : List (String × String) :=
  match store.positions.lookup path with
  | none => []
  | some position =>
    (store.links.filter (·.source = position)).filterMap fun link =>
      store.labels[link.target]?.map fun target => (link.name, target)

structure Joins (labels : List String) (link : Link) (edge : ImportEdge) : Prop where
  source : labels[link.source]? = some edge.importer
  name : link.name = edge.name
  target : labels[link.target]? = some edge.path

/-- The store shows the graph: it has the paths at their positions, the table is the inverse of
the list of paths, and there is one link for each edge. -/
structure Shows (store : Store) (graph : Graph) : Prop where
  labels : store.labels = graph.nodes
  inverse : ∀ path position,
    store.positions.lookup path = some position ↔ store.labels[position]? = some path
  links : List.Forall₂ (Joins store.labels) store.links graph.edges

variable {store store' : Store} {graph : Graph} {path : String} {position : Nat} {link : Link}
  {edge : ImportEdge} {edges : List ImportEdge}

theorem place_known (h : store.positions.lookup path = some position) :
    store.place path = (position, store) := by
  rw [place, h]

theorem place_new (h : store.positions.lookup path = none) :
    store.place path = (store.labels.length, { store with
      labels := store.labels ++ [path],
      positions := Table.put store.positions path store.labels.length }) := by
  rw [place, h]

theorem addAll_append (store : Store) (edges more : List ImportEdge) :
    store.addAll (edges ++ more) = (store.addAll edges).addAll more :=
  List.foldl_append

theorem join_eq (store : Store) (link : Link) : store.join link =
    if link ∈ store.links then store else { store with links := store.links ++ [link] } := by
  have hany : (store.links.any fun other => other.source = link.source ∧
      other.target = link.target ∧ other.name = link.name) = true ↔ link ∈ store.links := by
    simp only [List.any_eq_true, decide_eq_true_eq]
    constructor
    · rintro ⟨⟨source, name, target⟩, hother, rfl, rfl, rfl⟩
      exact hother
    · exact fun hlink => ⟨link, hlink, rfl, rfl, rfl⟩
  rw [join]
  by_cases h : link ∈ store.links
  · rw [if_pos (hany.2 h), if_pos h]
  · rw [if_neg (mt hany.1 h), if_neg h]

theorem shows_empty : empty.Shows .empty :=
  ⟨rfl, by simp [empty], .nil⟩

theorem getElem?_mono {labels labels' : List String} (h : labels <+: labels')
    (hposition : labels[position]? = some path) : labels'[position]? = some path := by
  obtain ⟨hlt, rfl⟩ := List.getElem?_eq_some_iff.1 hposition
  exact List.prefix_iff_getElem?.1 h position hlt

theorem Joins.mono {labels labels' : List String} (h : Joins labels link edge)
    (hlabels : labels <+: labels') : Joins labels' link edge :=
  ⟨getElem?_mono hlabels h.source, h.name, getElem?_mono hlabels h.target⟩

namespace Shows

theorem lookup_eq_none_iff (h : store.Shows graph) :
    store.positions.lookup path = none ↔ path ∉ graph.nodes := by
  rw [← h.labels, List.mem_iff_getElem?, not_exists, Option.eq_none_iff_forall_ne_some]
  exact forall_congr' fun position => not_congr (h.inverse path position)

/-- A new path comes behind the others. -/
theorem inverse_put (h : store.Shows graph) (hnew : path ∉ graph.nodes) (other : String)
    (position : Nat) :
    (Table.put store.positions path store.labels.length).lookup other = some position ↔
      (store.labels ++ [path])[position]? = some other := by
  rw [Table.lookup_put, List.getElem?_append]
  by_cases hother : other = path
  · subst hother
    rw [if_pos rfl, Option.some.injEq]
    split_ifs with hlt
    · have hne : store.labels[position]? ≠ some other := fun hlabel =>
        hnew (h.labels ▸ List.mem_of_getElem? hlabel)
      exact iff_of_false (by omega) hne
    · rw [List.getElem?_singleton]
      split_ifs with hlast
      · exact iff_of_true (by omega) rfl
      · exact iff_of_false (by omega) (by simp)
  · rw [if_neg hother, h.inverse]
    split_ifs with hlt
    · rfl
    · rw [List.getElem?_eq_none (by omega), List.getElem?_singleton]
      split_ifs <;> simp [Ne.symm hother]

/-- A path is placed as a node is added to the graph. -/
theorem place (h : store.Shows graph) (hplace : store.place path = (position, store')) :
    store'.Shows (graph.addNode path) ∧ store'.labels[position]? = some path ∧
      store.labels <+: store'.labels := by
  cases hlookup : store.positions.lookup path with
  | some found =>
    obtain ⟨rfl, rfl⟩ := Prod.mk.inj ((place_known hlookup).symm.trans hplace)
    have hlabel := (h.inverse path found).1 hlookup
    have hnode : path ∈ graph.nodes := h.labels ▸ List.mem_of_getElem? hlabel
    rw [addNode, if_pos hnode]
    exact ⟨h, hlabel, List.prefix_rfl⟩
  | none =>
    obtain ⟨rfl, rfl⟩ := Prod.mk.inj ((place_new hlookup).symm.trans hplace)
    have hnew := h.lookup_eq_none_iff.1 hlookup
    have hprefix := List.prefix_append store.labels [path]
    rw [addNode, if_neg hnew]
    refine ⟨⟨?_, h.inverse_put hnew, ?_⟩, by simp, hprefix⟩
    · simp [h.labels]
    · exact h.links.imp fun _ _ hjoins => hjoins.mono hprefix

/-- A link and an edge determine each other. -/
theorem biUnique (h : store.Shows graph) : Relator.BiUnique (Joins store.labels) := by
  have hposition {path : String} {position position' : Nat}
      (hlabel : store.labels[position]? = some path)
      (hlabel' : store.labels[position']? = some path) : position = position' := by
    rw [← h.inverse] at hlabel hlabel'
    exact Option.some.inj (hlabel.symm.trans hlabel')
  constructor
  · rintro ⟨source, name, target⟩ edge ⟨source', name', target'⟩ hlink hlink'
    obtain rfl := hposition hlink.source hlink'.source
    obtain rfl := hposition hlink.target hlink'.target
    obtain rfl := hlink.name.trans hlink'.name.symm
    rfl
  · rintro link ⟨importer, name, path⟩ ⟨importer', name', path'⟩ hedge hedge'
    obtain rfl := Option.some.inj (hedge.source.symm.trans hedge'.source)
    obtain rfl := Option.some.inj (hedge.target.symm.trans hedge'.target)
    obtain rfl := hedge.name.symm.trans hedge'.name
    rfl

theorem mem_links_iff (h : store.Shows graph) (hjoins : Joins store.labels link edge) :
    link ∈ store.links ↔ edge ∈ graph.edges :=
  List.rel_mem h.biUnique hjoins h.links

theorem join (h : store.Shows graph) (hjoins : Joins store.labels link edge) :
    (store.join link).Shows (graph.addEdge edge) := by
  have hmem := h.mem_links_iff hjoins
  rw [join_eq, addEdge]
  by_cases hedge : edge ∈ graph.edges
  · rw [if_pos hedge, if_pos (hmem.2 hedge)]
    exact h
  · rw [if_neg hedge, if_neg (mt hmem.1 hedge)]
    exact ⟨h.labels, h.inverse, List.rel_append h.links (.cons hjoins .nil)⟩

/-- A step of the store is a step of the graph. -/
theorem addImport (h : store.Shows graph) (edge : ImportEdge) :
    (store.addImport edge.importer edge.name edge.path).Shows
      (graph.addImport edge.importer edge.name edge.path) := by
  rcases hfirst : store.place edge.importer with ⟨source, first⟩
  rcases hsecond : first.place edge.path with ⟨target, second⟩
  obtain ⟨hshows, hsource, -⟩ := h.place hfirst
  obtain ⟨hshows', htarget, hprefix⟩ := hshows.place hsecond
  rw [Store.addImport, hfirst, Graph.addImport]
  simp only [hsecond]
  exact hshows'.join ⟨getElem?_mono hprefix hsource, rfl, htarget⟩

theorem addAll (h : store.Shows graph) (edges : List ImportEdge) :
    (store.addAll edges).Shows (graph.addAll edges) := by
  induction edges generalizing store graph with
  | nil => exact h
  | cons edge rest ih => exact ih (h.addImport edge)

theorem directImports_eq (h : store.Shows graph) (hgraph : graph.WellFormed) (path : String) :
    store.directImports path = graph.directImports path := by
  rw [Store.directImports, Graph.directImports]
  cases hlookup : store.positions.lookup path with
  | none =>
    have hnode := h.lookup_eq_none_iff.1 hlookup
    have hnone : graph.outgoing path = [] := by
      rw [outgoing, List.filter_eq_nil_iff]
      intro edge hedge
      rw [decide_eq_true_eq]
      rintro rfl
      exact hnode (hgraph.joins edge hedge).1
    rw [hnone, List.map_nil]
  | some position =>
    have hsource {link : Link} {edge : ImportEdge} (hjoins : Joins store.labels link edge) :
        decide (link.source = position) = true ↔ decide (edge.importer = path) = true := by
      rw [decide_eq_true_eq, decide_eq_true_eq]
      constructor
      · rintro rfl
        exact Option.some.inj
          (hjoins.source.symm.trans ((h.inverse path link.source).1 hlookup))
      · rintro rfl
        exact Option.some.inj (((h.inverse _ _).2 hjoins.source).symm.trans hlookup)
    have hlinks := List.rel_filter (fun _ _ hjoins => hsource hjoins) h.links
    rw [← List.filterMap_eq_map, ← List.forall₂_eq_eq_eq]
    refine List.rel_filterMap (fun link edge hjoins => ?_) hlinks
    simp [hjoins.target, hjoins.name, Option.rel_some_some]

/-- An import that has been added is found with its ends in place. -/
theorem addImport_again (h : store.Shows graph) (hgraph : graph.WellFormed)
    (hedge : edge ∈ graph.edges) :
    store.addImport edge.importer edge.name edge.path = store := by
  have hposition {path : String} (hpath : path ∈ graph.nodes) :
      ∃ position, store.positions.lookup path = some position :=
    Option.ne_none_iff_exists'.1 (mt h.lookup_eq_none_iff.1 (not_not_intro hpath))
  obtain ⟨source, hsource⟩ := hposition (hgraph.joins edge hedge).1
  obtain ⟨target, htarget⟩ := hposition (hgraph.joins edge hedge).2
  have hjoins : Joins store.labels ⟨source, edge.name, target⟩ edge :=
    ⟨(h.inverse _ _).1 hsource, rfl, (h.inverse _ _).1 htarget⟩
  rw [Store.addImport, place_known hsource]
  simp only [place_known htarget]
  rw [join_eq, if_pos ((h.mem_links_iff hjoins).2 hedge)]

end Shows

end Store

variable {graph : Graph} {edge : ImportEdge}

theorem addImport_again (hgraph : graph.WellFormed) (hedge : edge ∈ graph.edges) :
    graph.addImport edge.importer edge.name edge.path = graph := by
  obtain ⟨himporter, hpath⟩ := hgraph.joins edge hedge
  have hnode {path : String} (h : path ∈ graph.nodes) : graph.addNode path = graph := if_pos h
  rw [addImport, hnode himporter, hnode hpath, addEdge, if_pos hedge]

theorem length_eq_card {α : Type} [DecidableEq α] {l l' : List α} (h : l.Nodup)
    (hmem : ∀ a, a ∈ l ↔ a ∈ l') : l.length = l'.toFinset.card := by
  rw [← List.toFinset_card_of_nodup h]
  congr 1
  ext a
  simp [hmem]

theorem directImports_addAll (edges : List ImportEdge) (path : String) :
    (empty.addAll edges).directImports path =
      ((edges.filter (·.importer = path)).map fun edge => (edge.name, edge.path)).eraseDups := by
  rw [directImports, outgoing_addAll rfl]
  apply map_eraseDups
  rintro ⟨importer, name, path⟩ hfirst ⟨importer', name', path'⟩ hsecond heq
  simp only [List.mem_filter, decide_eq_true_eq] at hfirst hsecond
  obtain ⟨rfl, rfl⟩ := Prod.mk.inj heq
  rw [hfirst.2, hsecond.2]

/-- Imports that are added in any order, and as often as one likes, are stored just once. There is
a node for each path that occurs, an edge for each import, and the imports of a path are listed in
the order in which they were added first. In a store by positions, which shows the same graph, the
table of positions and the list of paths are inverse to each other. To add an import again, at any
later time, changes nothing. -/
theorem addAll_stores (edges : List ImportEdge) :
    let graph := empty.addAll edges
    let store := Store.empty.addAll edges
    (graph.nodes.length =
        (edges.flatMap fun edge => [edge.importer, edge.path]).toFinset.card ∧
      graph.edges.length = edges.toFinset.card ∧
      ∀ path, graph.directImports path = ((edges.filter (·.importer = path)).map
        fun edge => (edge.name, edge.path)).eraseDups) ∧
    (store.Shows graph ∧ ∀ path, store.directImports path = graph.directImports path) ∧
    ∀ edge ∈ edges, ∀ later,
      empty.addAll (edges ++ edge :: later) = empty.addAll (edges ++ later) ∧
      Store.empty.addAll (edges ++ edge :: later) = Store.empty.addAll (edges ++ later) := by
  intro graph store
  have hgraph : graph.WellFormed := WellFormed.empty.addAll edges
  have hshows : store.Shows graph := Store.shows_empty.addAll edges
  have hedges : ∀ edge, edge ∈ graph.edges ↔ edge ∈ edges := by
    simp [graph, mem_edges_addAll, empty]
  refine ⟨⟨?_, ?_, directImports_addAll edges⟩, ⟨hshows, hshows.directImports_eq hgraph⟩, ?_⟩
  · apply length_eq_card hgraph.nodup
    simp [graph, mem_nodes_addAll, empty]
  · apply length_eq_card _ hedges
    have hnone : empty.edges = ([] : List ImportEdge).eraseDups := rfl
    rw [edges_addAll hnone]
    exact nodup_eraseDups _
  · intro edge hedge later
    have hagain := addImport_again hgraph ((hedges edge).2 hedge)
    have hagain' := hshows.addImport_again hgraph ((hedges edge).2 hedge)
    constructor
    · rw [addAll_append, addAll_append]
      exact congrArg (addAll · later) hagain
    · rw [Store.addAll_append, Store.addAll_append]
      exact congrArg (Store.addAll · later) hagain'

example : (Store.empty.addAll [⟨"a", "x", "b"⟩, ⟨"a", "y", "b"⟩, ⟨"a", "x", "b"⟩,
    ⟨"b", "x", "b"⟩]).links = [⟨0, "x", 1⟩, ⟨0, "y", 1⟩, ⟨1, "x", 1⟩] := by decide

end ManifestModules.Graph
