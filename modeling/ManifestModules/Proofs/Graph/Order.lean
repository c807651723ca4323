import ManifestModules.Proofs.Graph.Walk

/-!
# Dependency orders of graphs without cycles

A walk over all nodes finishes all of them. Without cycles it meets no node that imports itself, and
no node is finished before something that it imports.
-/

namespace ManifestModules.Graph

open Relation

/-- The order lists each node once, after everything that it imports. -/
structure Ordered (graph : Graph) (order : List String) : Prop where
  nodup : order.Nodup
  complete : ∀ node, node ∈ order ↔ node ∈ graph.nodes
  after : ∀ before node after, order = before ++ node :: after → ∀ target,
    graph.Links node target → target ∈ before

variable {graph : Graph}

/-- No node lies open between the walks from the nodes, hence all of them are finished. -/
theorem finishOrder_spec (h : graph.WellFormed) :
    match graph.finishOrder with
    | .error node => graph.Links node node
    | .ok order => order.Nodup ∧ (∀ node, node ∈ order ↔ node ∈ graph.nodes) ∧
        Follows graph order := by
  have hvalid : Walk.Valid graph ⟨[], []⟩ :=
    ⟨by simp, by simp, List.nodup_nil, fun before node after heq => by simp at heq⟩
  have hopen : ∀ node, ¬ Walk.Open ⟨[], []⟩ node := fun node hnode => by simp [Walk.Open] at hnode
  have hfuel : Walk.unseen graph ⟨[], []⟩ ≤ graph.nodes.length := List.length_filter_le ..
  have hwalk := visited_foldlM (visited_visit h graph.nodes.length) graph.nodes hvalid hfuel
    fun target hmem => ⟨hmem, fun other hother => absurd hother (hopen other)⟩
  simp only [finishOrder]
  cases hrun : graph.nodes.foldlM (visit graph graph.nodes.length) ⟨[], []⟩ with
  | error node =>
    rw [hrun] at hwalk
    exact hwalk
  | ok walk =>
    rw [hrun] at hwalk
    obtain ⟨hadvances, hdiscovered⟩ := hwalk
    refine ⟨hadvances.valid.nodup, fun node => ⟨fun hmem => ?_, fun hmem => ?_⟩,
      hadvances.valid.follows⟩
    · exact hadvances.valid.nodes node (hadvances.valid.discovered node hmem)
    · by_contra hnot
      exact hopen node ((hadvances.opens node).1 ⟨hdiscovered node hmem, hnot⟩)

theorem find?_incoming_eq_none {node : String} {passed : List String} :
    (graph.incoming node).find? (·.importer ∉ node :: passed) = none ↔
      ∀ importer, graph.Links importer node → importer = node ∨ importer ∈ passed := by
  simp only [incoming, List.find?_eq_none, List.mem_filter, decide_eq_true_eq, not_not,
    List.mem_cons]
  constructor
  · rintro h _ ⟨edge, hedge, rfl, rfl⟩
    exact h edge ⟨hedge, rfl⟩
  · rintro h edge ⟨hedge, rfl⟩
    exact h edge.importer ⟨edge, hedge, rfl, rfl⟩

/-- No importer is late if each comes before what it imports. -/
theorem lateImporter?_eq_none {passed nodes : List String}
    (h : ∀ before node after, nodes = before ++ node :: after → ∀ importer,
      graph.Links importer node → importer ∈ before ∨ importer ∈ passed) :
    graph.lateImporter? passed nodes = none := by
  induction nodes generalizing passed with
  | nil => rfl
  | cons node rest ih =>
    have hnode : (graph.incoming node).find? (·.importer ∉ node :: passed) = none := by
      rw [find?_incoming_eq_none]
      intro importer hlinks
      have hbefore := h [] node rest rfl importer hlinks
      simp only [List.not_mem_nil, false_or] at hbefore
      exact .inr hbefore
    rw [lateImporter?, hnode]
    apply ih
    rintro before other after rfl importer hlinks
    have hbefore := h (node :: before) other after rfl importer hlinks
    simp only [List.mem_cons] at hbefore ⊢
    tauto

namespace Ordered

variable {order : List String} {node importer : String}

/-- An importer comes after what it imports. -/
theorem importer_mem (h : graph.Ordered order) (hgraph : graph.WellFormed)
    {before after : List String} (hsplit : order = before ++ node :: after)
    (hlinks : graph.Links importer node) : importer ∈ after := by
  have himporter := (h.complete importer).2 (hgraph.nodes_of_links hlinks).1
  rw [hsplit, List.append_cons, List.mem_append] at himporter
  rcases himporter with hearly | hafter
  · -- An importer at or before the place of the node would be preceded by the node itself.
    obtain ⟨front, back, hfront⟩ := List.append_of_mem hearly
    rw [List.append_cons, hfront, List.append_assoc] at hsplit
    have hnode : node ∈ front := h.after front importer (back ++ after) hsplit node hlinks
    have hlast : node ∈ importer :: back := by
      apply List.mem_of_getLast?
      have hend := congrArg List.getLast? hfront
      rw [List.getLast?_append_cons] at hend
      simpa using hend.symm
    have hnodup := h.nodup
    rw [hsplit, List.nodup_append] at hnodup
    exact absurd rfl (hnodup.2.2 node hnode node (List.mem_append_left _ hlast))
  · exact hafter

theorem not_links_last (h : graph.Ordered order) (hgraph : graph.WellFormed)
    (hlast : order.getLast? = some node) : ¬ graph.Links importer node := by
  intro hlinks
  obtain ⟨front, rfl⟩ := List.getLast?_eq_some_iff.1 hlast
  simpa using h.importer_mem hgraph rfl hlinks

theorem lateImporter?_eq_none (h : graph.Ordered order) (hgraph : graph.WellFormed) :
    graph.lateImporter? [] order.reverse = none := by
  apply Graph.lateImporter?_eq_none
  intro before node after hsplit importer hlinks
  have horder : order = after.reverse ++ node :: before.reverse := by
    rw [← List.reverse_reverse order, hsplit]
    simp
  exact .inl (List.mem_reverse.1 (h.importer_mem hgraph horder hlinks))

end Ordered

/-- A graph without cycles has a dependency order. -/
theorem exists_dependencyOrder (hgraph : graph.WellFormed)
    (hacyclic : ∀ node, ¬ TransGen graph.Links node node) :
    ∃ order, graph.dependencyOrder = .ok order ∧ graph.Ordered order := by
  have hspec := finishOrder_spec hgraph
  cases hrun : graph.finishOrder with
  | error node =>
    rw [hrun] at hspec
    exact absurd (.single hspec) (hacyclic node)
  | ok order =>
    rw [hrun] at hspec
    obtain ⟨hnodup, hcomplete, hfollows⟩ := hspec
    have hordered : graph.Ordered order := by
      refine ⟨hnodup, hcomplete, fun before node after heq target hlinks => ?_⟩
      rcases hfollows before node after heq target hlinks with hbefore | hcycle
      · exact hbefore
      · exact absurd (hcycle.tail hlinks) (hacyclic target)
    refine ⟨order, ?_, hordered⟩
    rw [dependencyOrder, hrun]
    simp only [hordered.lateImporter?_eq_none hgraph]

end ManifestModules.Graph
