import ManifestModules.Graph.Order
import Mathlib.Data.List.Nodup
import Mathlib.Logic.Relation

/-!
# Depth-first walks

A walk discovers a node, then walks to its targets, and then finishes it. When a node is finished,
each of its targets has been finished before it, or is still open, and then it leads back to the
node. Hence the order of finishing is a dependency order of every graph without cycles.
-/

namespace ManifestModules.Graph

open Relation

/-- One path imports another one, under any name. -/
def Links (graph : Graph) (importer path : String) : Prop :=
  ∃ edge ∈ graph.edges, edge.importer = importer ∧ edge.path = path

structure WellFormed (graph : Graph) : Prop where
  nodup : graph.nodes.Nodup
  joins : ∀ edge ∈ graph.edges, edge.importer ∈ graph.nodes ∧ edge.path ∈ graph.nodes

/-- A node comes after its targets, apart from those that lead back to it. -/
def Follows (graph : Graph) (order : List String) : Prop :=
  ∀ before node after, order = before ++ node :: after → ∀ target, graph.Links node target →
    target ∈ before ∨ TransGen graph.Links target node

namespace Walk

def Open (walk : Walk) (node : String) : Prop :=
  node ∈ walk.discovered ∧ node ∉ walk.finished

structure Valid (graph : Graph) (walk : Walk) : Prop where
  discovered : ∀ node ∈ walk.finished, node ∈ walk.discovered
  nodes : ∀ node ∈ walk.discovered, node ∈ graph.nodes
  nodup : walk.finished.Nodup
  follows : Follows graph walk.finished

/-- A walk goes on, and what it discovers it finishes. -/
structure Advances (graph : Graph) (walk walk' : Walk) : Prop where
  valid : walk'.Valid graph
  discovered : ∀ node ∈ walk.discovered, node ∈ walk'.discovered
  opens : ∀ node, walk'.Open node ↔ walk.Open node

def unseen (graph : Graph) (walk : Walk) : Nat :=
  (graph.nodes.filter (· ∉ walk.discovered)).length

end Walk

/-- Visits either discover their targets or find a node that imports itself. -/
def Visited (graph : Graph) (walk : Walk) (targets : List String) : Except String Walk → Prop
  | .error node => graph.Links node node
  | .ok walk' => walk.Advances graph walk' ∧ ∀ target ∈ targets, target ∈ walk'.discovered

section

variable {graph : Graph} {walk walk' walk'' : Walk} {node : String}

theorem mem_targets {target : String} :
    target ∈ (graph.outgoing node).map (·.path) ↔ graph.Links node target := by
  simp [outgoing, Links, and_assoc]

theorem WellFormed.nodes_of_links {target : String} (h : graph.WellFormed)
    (hlinks : graph.Links node target) : node ∈ graph.nodes ∧ target ∈ graph.nodes := by
  obtain ⟨edge, hedge, rfl, rfl⟩ := hlinks
  exact h.joins edge hedge

namespace Walk

theorem Advances.refl (h : walk.Valid graph) : walk.Advances graph walk :=
  ⟨h, fun _ hmem => hmem, fun _ => Iff.rfl⟩

theorem Advances.trans (h : walk.Advances graph walk') (h' : walk'.Advances graph walk'') :
    walk.Advances graph walk'' :=
  ⟨h'.valid, fun other hmem => h'.discovered other (h.discovered other hmem),
    fun other => (h'.opens other).trans (h.opens other)⟩

theorem unseen_le (h : ∀ other ∈ walk.discovered, other ∈ walk'.discovered) :
    walk'.unseen graph ≤ walk.unseen graph := by
  apply List.Sublist.length_le
  apply List.monotone_filter_right
  intro other hother
  simp only [decide_eq_true_eq] at hother ⊢
  exact fun hmem => hother (h other hmem)

/-- A new node is one fewer to be discovered. -/
theorem unseen_discover_lt (hnode : node ∈ graph.nodes) (hnew : node ∉ walk.discovered) :
    unseen graph { walk with discovered := node :: walk.discovered } < walk.unseen graph := by
  have hfilter : graph.nodes.filter (· ∉ node :: walk.discovered) =
      (graph.nodes.filter (· ∉ walk.discovered)).filter (· ≠ node) := by
    rw [List.filter_filter]
    congr 1
    ext other
    simp
  rw [unseen, unseen, hfilter]
  apply List.length_filter_lt_length_iff_exists.2
  exact ⟨node, by simp [hnode, hnew], by simp⟩

theorem open_discover {other : String} (h : walk.Valid graph) (hnew : node ∉ walk.discovered) :
    Open { walk with discovered := node :: walk.discovered } other ↔
      other = node ∨ walk.Open other := by
  have hnode : node ∉ walk.finished := fun hmem => hnew (h.discovered node hmem)
  simp only [Open, List.mem_cons]
  by_cases hother : other = node
  · subst hother
    simp [hnode]
  · simp [hother]

theorem Valid.discover (h : walk.Valid graph) (hnode : node ∈ graph.nodes) :
    Valid graph { walk with discovered := node :: walk.discovered } := by
  refine ⟨fun other hmem => List.mem_cons_of_mem _ (h.discovered other hmem), ?_, h.nodup,
    h.follows⟩
  intro other hmem
  rcases List.mem_cons.1 hmem with rfl | hmem
  · exact hnode
  · exact h.nodes other hmem

end Walk

theorem Follows.append {order : List String} (h : Follows graph order)
    (hnode : ∀ target, graph.Links node target →
      target ∈ order ∨ TransGen graph.Links target node) : Follows graph (order ++ [node]) := by
  intro before other after heq target hlinks
  rcases List.eq_nil_or_concat after with rfl | ⟨after, last, rfl⟩
  · obtain ⟨rfl, hlast⟩ := List.append_inj' heq rfl
    cases hlast
    exact hnode target hlinks
  · have hsplit : order ++ [node] = (before ++ other :: after) ++ [last] := by simpa using heq
    obtain ⟨hbefore, -⟩ := List.append_inj' hsplit rfl
    exact h before other after hbefore target hlinks

/-- The targets of a node have been visited and the node is finished. -/
theorem Walk.Advances.finish (hvalid : walk.Valid graph) (hnew : node ∉ walk.discovered)
    (hself : ¬ graph.Links node node)
    (hopen : ∀ other, walk.Open other → TransGen graph.Links other node)
    (h : Advances graph { walk with discovered := node :: walk.discovered } walk')
    (htargets : ∀ target, graph.Links node target → target ∈ walk'.discovered) :
    walk.Advances graph { walk' with finished := walk'.finished ++ [node] } := by
  have hdiscovered : node ∈ walk'.discovered := h.discovered node (List.mem_cons_self ..)
  have hnode : walk'.Open node :=
    (h.opens node).2 ((open_discover hvalid hnew).2 (.inl rfl))
  refine ⟨⟨?_, h.valid.nodes, ?_, h.valid.follows.append ?_⟩, ?_, ?_⟩
  · intro other hother
    rcases List.mem_append.1 hother with hother | hother
    · exact h.valid.discovered other hother
    · rwa [List.mem_singleton.1 hother]
  · rw [← List.concat_eq_append]
    exact h.valid.nodup.concat hnode.2
  · -- A target that is not finished lies on the way to the node.
    intro target hlinks
    by_cases hfinished : target ∈ walk'.finished
    · exact .inl hfinished
    have htarget := (h.opens target).1 ⟨htargets target hlinks, hfinished⟩
    rcases (open_discover hvalid hnew).1 htarget with rfl | hwas
    · exact absurd hlinks hself
    · exact .inr (hopen target hwas)
  · exact fun other hother => h.discovered other (List.mem_cons_of_mem _ hother)
  · intro other
    have hother := (h.opens other).trans (open_discover hvalid hnew)
    by_cases heq : other = node
    · subst heq
      simp only [Open, List.mem_append, List.mem_singleton, or_true, not_true_eq_false, and_false,
        false_iff]
      exact fun hwas => hnew hwas.1
    · rw [or_iff_right heq] at hother
      rw [← hother]
      simp [Open, heq]

/-- Visits one after the other, if each of them does what it should. -/
theorem visited_foldlM {visit : Walk → String → Except String Walk} {fuel : Nat}
    (hvisit : ∀ walk node, walk.Valid graph → node ∈ graph.nodes → walk.unseen graph ≤ fuel →
      (∀ other, walk.Open other → TransGen graph.Links other node) →
      Visited graph walk [node] (visit walk node))
    (targets : List String) (hvalid : walk.Valid graph) (hfuel : walk.unseen graph ≤ fuel)
    (htargets : ∀ target ∈ targets, target ∈ graph.nodes ∧
      ∀ other, walk.Open other → TransGen graph.Links other target) :
    Visited graph walk targets (targets.foldlM visit walk) := by
  induction targets generalizing walk with
  | nil => exact ⟨.refl hvalid, by simp⟩
  | cons target rest ih =>
    obtain ⟨⟨hnode, hopen⟩, hrest⟩ := List.forall_mem_cons.1 htargets
    have hfirst := hvisit walk target hvalid hnode hfuel hopen
    rw [List.foldlM_cons]
    cases hrun : visit walk target with
    | error self =>
      rw [hrun] at hfirst
      exact hfirst
    | ok walk' =>
      rw [hrun] at hfirst
      obtain ⟨hadvances, hdiscovered⟩ := hfirst
      have hmore := ih hadvances.valid
        (Nat.le_trans (Walk.unseen_le hadvances.discovered) hfuel) fun other hmem =>
          ⟨(hrest other hmem).1, fun before hbefore =>
            (hrest other hmem).2 before ((hadvances.opens before).1 hbefore)⟩
      change Visited graph walk (target :: rest) (rest.foldlM visit walk')
      cases hmores : rest.foldlM visit walk' with
      | error self =>
        rw [hmores] at hmore
        exact hmore
      | ok walk'' =>
        rw [hmores] at hmore
        refine ⟨hadvances.trans hmore.1, List.forall_mem_cons.2 ⟨?_, hmore.2⟩⟩
        exact hmore.1.discovered target (hdiscovered target (List.mem_singleton_self _))

/-- A visit to a node: the nodes that are still to be discovered bound the fuel it needs. -/
theorem visited_visit (hgraph : graph.WellFormed) (fuel : Nat) (walk : Walk) (node : String)
    (hvalid : walk.Valid graph) (hnode : node ∈ graph.nodes) (hfuel : walk.unseen graph ≤ fuel)
    (hopen : ∀ other, walk.Open other → TransGen graph.Links other node) :
    Visited graph walk [node] (visit graph fuel walk node) := by
  induction fuel generalizing walk node with
  | zero =>
    have hseen : node ∈ walk.discovered := by
      by_contra hnew
      have hlt := Walk.unseen_discover_lt hnode hnew
      omega
    exact ⟨.refl hvalid, by simpa using hseen⟩
  | succ fuel ih =>
    rw [visit]
    by_cases hseen : node ∈ walk.discovered
    · rw [if_pos hseen]
      exact ⟨.refl hvalid, by simpa using hseen⟩
    by_cases hself : graph.Links node node
    · rw [if_neg hseen, if_pos (mem_targets.2 hself)]
      exact hself
    rw [if_neg hseen, if_neg (mt mem_targets.1 hself)]
    have hlt := Walk.unseen_discover_lt hnode hseen
    have htargets := visited_foldlM ih ((graph.outgoing node).map (·.path))
      (hvalid.discover hnode) (by omega) fun target hmem => by
        have hlinks := mem_targets.1 hmem
        refine ⟨(hgraph.nodes_of_links hlinks).2, fun other hother => ?_⟩
        rcases (Walk.open_discover hvalid hseen).1 hother with rfl | hother
        · exact .single hlinks
        · exact (hopen other hother).tail hlinks
    cases hrun : ((graph.outgoing node).map (·.path)).foldlM (visit graph fuel)
      { walk with discovered := node :: walk.discovered } with
    | error self =>
      rw [hrun] at htargets
      simp only [hrun]
      exact htargets
    | ok walk' =>
      rw [hrun] at htargets
      simp only [hrun]
      refine ⟨htargets.1.finish hvalid hseen hself hopen fun target hlinks =>
        htargets.2 target (mem_targets.2 hlinks), ?_⟩
      simpa using htargets.1.discovered node (List.mem_cons_self ..)

end

end ManifestModules.Graph
