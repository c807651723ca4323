import ManifestModules.Proofs.Graph.Imports
import Mathlib.Data.List.Induction

/-!
# The order of the edges

A graph keeps an import at the place of its first addition, so that its edges are the imports that
were added without their repetitions.
-/

namespace ManifestModules.Graph

section

variable {α : Type} [BEq α] [LawfulBEq α]

theorem eraseDups_concat (l : List α) (a : α) :
    (l ++ [a]).eraseDups = if a ∈ l then l.eraseDups else l.eraseDups ++ [a] := by
  rw [List.eraseDups_append]
  by_cases h : a ∈ l <;> simp [List.removeAll, h, List.eraseDups_cons]

theorem filter_eraseDups (p : α → Bool) (l : List α) :
    l.eraseDups.filter p = (l.filter p).eraseDups := by
  induction l using List.reverseRecOn with
  | nil => simp
  | append_singleton l a ih =>
    rw [eraseDups_concat, List.filter_append]
    by_cases ha : p a
    · rw [List.filter_cons_of_pos ha, List.filter_nil, eraseDups_concat]
      by_cases h : a ∈ l <;> simp [h, ha, ih]
    · by_cases h : a ∈ l <;> simp [h, ha, ih]

theorem eraseDups_of_nodup {l : List α} (h : l.Nodup) : l.eraseDups = l := by
  induction l using List.reverseRecOn with
  | nil => simp
  | append_singleton l a ih =>
    have ha : a ∉ l := fun hmem => (List.nodup_append.1 h).2.2 a hmem a (by simp) rfl
    rw [eraseDups_concat, if_neg ha, ih (List.nodup_append.1 h).1]

theorem nodup_eraseDups (l : List α) : l.eraseDups.Nodup := by
  induction l using List.reverseRecOn with
  | nil => simp
  | append_singleton l a ih =>
    rw [eraseDups_concat]
    split_ifs with h
    · exact ih
    · exact List.concat_eq_append ▸ ih.concat (by simpa using h)

theorem map_eraseDups {β : Type} [BEq β] [LawfulBEq β] {f : α → β} {l : List α}
    (hf : ∀ a ∈ l, ∀ b ∈ l, f a = f b → a = b) : l.eraseDups.map f = (l.map f).eraseDups := by
  induction l using List.reverseRecOn with
  | nil => simp
  | append_singleton l a ih =>
    have hrest : l.eraseDups.map f = (l.map f).eraseDups :=
      ih fun b hb c hc => hf b (List.mem_append_left _ hb) c (List.mem_append_left _ hc)
    have hmem : f a ∈ l.map f ↔ a ∈ l := by
      rw [List.mem_map]
      constructor
      · rintro ⟨b, hb, heq⟩
        exact hf b (List.mem_append_left _ hb) a (by simp) heq ▸ hb
      · exact fun ha => ⟨a, ha, rfl⟩
    rw [List.map_append, List.map_singleton, eraseDups_concat, eraseDups_concat]
    by_cases h : a ∈ l <;> simp [h, hmem, hrest]

/-- Repetitions of a list behind it are left out. -/
theorem eraseDups_append_of_subset {l repeated : List α} (h : l.Nodup) (hsubset : repeated ⊆ l) :
    (l ++ repeated).eraseDups = l := by
  have hnone : repeated.removeAll l = [] := by
    rw [List.removeAll, List.filter_eq_nil_iff]
    intro a ha
    simpa using hsubset ha
  rw [List.eraseDups_append, hnone, List.eraseDups_nil, List.append_nil, eraseDups_of_nodup h]

end

variable {graph : Graph} {path : String} {edges done : List ImportEdge}

theorem edges_addImport (edge : ImportEdge) :
    (graph.addImport edge.importer edge.name edge.path).edges =
      if edge ∈ graph.edges then graph.edges else graph.edges ++ [edge] := by
  rw [addImport, addEdge]
  simp only [edges_addNode]
  by_cases h : edge ∈ graph.edges <;> simp [h]

/-- Every import stands where it was added first. -/
theorem edges_addAll (h : graph.edges = done.eraseDups) :
    (graph.addAll edges).edges = (done ++ edges).eraseDups := by
  induction edges generalizing graph done with
  | nil => simp [addAll, h]
  | cons edge rest ih =>
    change ((graph.addImport edge.importer edge.name edge.path).addAll rest).edges = _
    rw [List.append_cons]
    apply ih
    rw [edges_addImport, eraseDups_concat, h]
    simp

/-- The edges that start from a path stand in the order in which they were added first. -/
theorem outgoing_addAll (h : graph.edges = []) :
    (graph.addAll edges).outgoing path = (edges.filter (·.importer = path)).eraseDups := by
  have hedges : graph.edges = ([] : List ImportEdge).eraseDups := by simp [h]
  rw [outgoing, edges_addAll hedges, filter_eraseDups, List.nil_append]

end ManifestModules.Graph
