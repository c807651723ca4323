import ManifestModules.Proofs.Graph.Imports
import ManifestModules.Proofs.Graph.Order
import ManifestModules.Proofs.Module.Unfolding

/-!
# Loaded modules have dependency orders

In the graph of a module all import sites of a path fall together, so that branches of the tree that
never meet could close a cycle. They do not: imported modules with the same path are the same, and
the root is not imported again. Thus every way through the graph is a way down in the tree.
-/

namespace ManifestModules.Module

open Relation

variable {ρ τ : Type}

def Below (module inner : Module τ) : Prop :=
  ∃ site ∈ module.imports, site.module.Contains inner

/-- Modules that are imported under one path are the same, and the root is not imported. -/
structure Coherent (root : Module τ) : Prop where
  unique : ∀ inner other, root.Below inner → root.Below other → inner.path = other.path →
    inner = other
  apart : ∀ inner, root.Below inner → inner.path ≠ root.path
  placed : ∀ inner, root.Contains inner → ∀ site ∈ inner.imports, site.module.path = site.path

/-- The order lists the paths in a tree once each, after all paths imported there, and the root
last. -/
structure DependencyOrder (root : Module τ) (order : List String) : Prop where
  nodup : order.Nodup
  complete : ∀ path, path ∈ order ↔ ∃ inner, root.Contains inner ∧ inner.path = path
  after : ∀ before path rest, order = before ++ path :: rest → ∀ inner, root.Contains inner →
    inner.path = path → ∀ site ∈ inner.imports, site.path ∈ before
  last : order.getLast? = some root.path

section

variable {root module inner other : Module τ} {site : Import (Module τ)}

theorem Below.of_mem (h : site ∈ module.imports) : module.Below site.module :=
  ⟨site, h, .root⟩

theorem Below.contains (h : module.Below inner) : module.Contains inner := by
  obtain ⟨site, hsite, hcontains⟩ := h
  exact .imported hsite hcontains

theorem Contains.trans_below (h : module.Contains inner) (h' : inner.Below other) :
    module.Below other := by
  induction h with
  | root => exact h'
  | imported hsite _ ih => exact ⟨_, hsite, (ih h').contains⟩

theorem Below.trans (h : module.Below inner) (h' : inner.Below other) : module.Below other :=
  h.contains.trans_below h'

theorem Contains.eq_or_below (h : root.Contains inner) : inner = root ∨ root.Below inner := by
  cases h with
  | root => exact .inl rfl
  | imported hsite hcontains => exact .inr ⟨_, hsite, hcontains⟩

theorem Contains.exists_parent (h : root.Contains inner) : inner = root ∨
    ∃ parent, root.Contains parent ∧ ∃ site ∈ parent.imports, site.module = inner := by
  induction h with
  | root => exact .inl rfl
  | @imported module _ site hsite _ ih =>
    rcases ih with rfl | ⟨parent, hparent, found⟩
    · exact .inr ⟨module, .root, site, hsite, rfl⟩
    · exact .inr ⟨parent, .imported hsite hparent, found⟩

/-- Trees are finite. -/
theorem not_below_self (module : Module τ) : ¬ module.Below module := by
  induction module using Module.induction with
  | step module ih =>
    rintro ⟨site, hsite, hcontains⟩
    exact ih site hsite (hcontains.trans_below (.of_mem hsite))

namespace Coherent

theorem eq_of_path_eq (h : Coherent root) (hinner : root.Contains inner) (hother : root.Below other)
    (hpath : inner.path = other.path) : inner = other := by
  rcases hinner.eq_or_below with rfl | hbelow
  · exact absurd hpath.symm (h.apart other hother)
  · exact h.unique inner other hbelow hother hpath

/-- A way through the graph leads down in the tree. -/
theorem below_of_transGen (h : Coherent root) {path target : String}
    (hway : TransGen (Graph.ofModule root).Links path target) :
    ∃ inner lower, root.Contains inner ∧ inner.path = path ∧ inner.Below lower ∧
      lower.path = target := by
  induction hway with
  | single hlinks =>
    obtain ⟨inner, hinner, hpath, site, hsite, rfl⟩ := Graph.links_ofModule.1 hlinks
    exact ⟨inner, site.module, hinner, hpath, .of_mem hsite, h.placed inner hinner site hsite⟩
  | tail _ hlinks ih =>
    obtain ⟨inner, lower, hinner, hpath, hlower, hmiddle⟩ := ih
    obtain ⟨other, hother, hsame, site, hsite, rfl⟩ := Graph.links_ofModule.1 hlinks
    obtain rfl := h.eq_of_path_eq hother (hinner.trans_below hlower) (hsame.trans hmiddle.symm)
    exact ⟨inner, site.module, hinner, hpath, hlower.trans (.of_mem hsite),
      h.placed other hother site hsite⟩

theorem acyclic (h : Coherent root) (path : String) :
    ¬ TransGen (Graph.ofModule root).Links path path := by
  intro hcycle
  obtain ⟨inner, lower, hinner, hpath, hlower, hsame⟩ := h.below_of_transGen hcycle
  obtain rfl := h.eq_of_path_eq hinner (hinner.trans_below hlower) (hpath.trans hsame.symm)
  exact not_below_self inner hlower

theorem mem_nodes_ofModule (h : Coherent root) {path : String} :
    path ∈ (Graph.ofModule root).nodes ↔ ∃ inner, root.Contains inner ∧ inner.path = path := by
  rw [Graph.ofModule_eq, Graph.mem_nodes_addAll, Graph.mem_nodes_addNode]
  simp only [Graph.empty, List.not_mem_nil, false_or, Graph.mem_moduleEdges]
  constructor
  · rintro (rfl | ⟨edge, ⟨inner, hinner, site, hsite, rfl⟩, rfl | rfl⟩)
    · exact ⟨root, .root, rfl⟩
    · exact ⟨inner, hinner, rfl⟩
    · exact ⟨site.module, (hinner.trans_below (.of_mem hsite)).contains,
        h.placed inner hinner site hsite⟩
  · rintro ⟨inner, hinner, rfl⟩
    rcases hinner.exists_parent with rfl | ⟨parent, hparent, site, hsite, rfl⟩
    · exact .inl rfl
    · exact .inr ⟨_, ⟨parent, hparent, site, hsite, rfl⟩,
        .inr (h.placed parent hparent site hsite)⟩

/-- Only the root has nothing that imports it. -/
theorem getLast?_eq (h : Coherent root) {order : List String}
    (hordered : (Graph.ofModule root).Ordered order) : order.getLast? = some root.path := by
  have hroot : root.path ∈ order :=
    (hordered.complete root.path).2 (h.mem_nodes_ofModule.2 ⟨root, .root, rfl⟩)
  have hlast := List.getLast?_eq_some_getLast (List.ne_nil_of_mem hroot)
  have hmem := (hordered.complete _).1 (List.mem_of_getLast? hlast)
  obtain ⟨inner, hinner, hpath⟩ := h.mem_nodes_ofModule.1 hmem
  rw [← hpath] at hlast
  rcases hinner.exists_parent with rfl | ⟨parent, hparent, site, hsite, rfl⟩
  · exact hlast
  · have hlinks : (Graph.ofModule root).Links parent.path site.module.path :=
      Graph.links_ofModule.2 ⟨parent, hparent, rfl, site, hsite,
        (h.placed parent hparent site hsite).symm⟩
    exact absurd hlinks (hordered.not_links_last Graph.wellFormed_ofModule hlast)

theorem exists_dependencyOrder (h : Coherent root) :
    ∃ order, (Graph.ofModule root).dependencyOrder = .ok order ∧ DependencyOrder root order := by
  obtain ⟨order, horder, hordered⟩ :=
    Graph.exists_dependencyOrder Graph.wellFormed_ofModule h.acyclic
  refine ⟨order, horder, hordered.nodup, fun path => ?_, ?_, h.getLast?_eq hordered⟩
  · rw [hordered.complete, h.mem_nodes_ofModule]
  · intro before path rest hsplit inner hinner hpath site hsite
    exact hordered.after before path rest hsplit site.path
      (Graph.links_ofModule.2 ⟨inner, hinner, hpath, site, hsite, rfl⟩)

end Coherent

end

section

variable {files : Source Id} {limit : Nat} {path : String} {entries : Entries}
  {module inner : Module τ}

theorem Unfolds.path_eq (h : Unfolds files path entries module) : module.path = path := by
  cases h
  rfl

theorem UnfoldsImports.leads {declarations : List ImportDeclaration}
    {imports : List (Import (Module τ))} {remarks : List String}
    (h : UnfoldsImports files path declarations imports remarks) {site : Import (Module τ)}
    (hsite : site ∈ imports) : ∃ declaration ∈ declarations, ∃ first others,
      Leads files path declaration site.path first others ∧
      Unfolds files site.path first site.module := by
  induction imports generalizing declarations remarks with
  | nil => cases hsite
  | cons head tail ih =>
    cases h with
    | cons leads unfolds rest =>
      rcases List.mem_cons.1 hsite with rfl | htail
      · exact ⟨_, List.mem_cons_self .., _, _, leads, unfolds⟩
      · obtain ⟨declaration, hmem, found⟩ := ih rest htail
        exact ⟨declaration, List.mem_cons_of_mem _ hmem, found⟩

/-- The import of an unfolded module is one step down in the unfolding. -/
theorem Unfolds.step (h : Unfolds files path entries module) {site : Import (Module τ)}
    (hsite : site ∈ module.imports) (importers : List String) : ∃ first others,
      Place.Imports files ⟨importers, path, entries⟩ ⟨importers ++ [path], site.path, first⟩ ∧
      (files.read site.path).run = .ok (first :: others) ∧
      Unfolds files site.path first site.module := by
  cases h with
  | intro shape imports =>
    obtain ⟨declaration, hmem, first, others, hleads, hunfolds⟩ := imports.leads hsite
    exact ⟨first, others, .intro shape hmem hleads, hleads.read, hunfolds⟩

/-- A module in the tree of an import has its place in the unfolding. -/
theorem Unfolds.exists_place {others : List Entries} (h : Unfolds files path entries module)
    (hread : (files.read path).run = .ok (entries :: others)) (hcontains : module.Contains inner)
    (importers : List String) : ∃ chain first others,
      Relation.ReflTransGen (Place.Imports files) ⟨importers, path, entries⟩
        ⟨chain, inner.path, first⟩ ∧ importers ⊆ chain ∧
      (files.read inner.path).run = .ok (first :: others) ∧
      Unfolds files inner.path first inner := by
  induction hcontains generalizing path entries others importers with
  | root =>
    obtain rfl := h.path_eq
    exact ⟨importers, entries, others, .refl, List.Subset.refl _, hread, h⟩
  | imported hsite _ ih =>
    obtain ⟨first, others, hstep, hread, hunfolds⟩ := h.step hsite importers
    obtain ⟨chain, found, more, hway, hchain, found'⟩ := ih hunfolds hread (importers ++ [path])
    exact ⟨chain, found, more, hway.head hstep,
      List.Subset.trans (List.subset_append_left _ _) hchain, found'⟩

theorem Unfolds.place_below (h : Unfolds files path entries module) (hbelow : module.Below inner) :
    ∃ chain first others, Relation.ReflTransGen (Place.Imports files) ⟨[], path, entries⟩
        ⟨chain, inner.path, first⟩ ∧ path ∈ chain ∧
      (files.read inner.path).run = .ok (first :: others) ∧
      Unfolds files inner.path first inner := by
  obtain ⟨site, hsite, hcontains⟩ := hbelow
  obtain ⟨first, others, hstep, hread, hunfolds⟩ := h.step hsite []
  obtain ⟨chain, found, more, hway, hchain, found'⟩ :=
    hunfolds.exists_place hread hcontains [path]
  exact ⟨chain, found, more, hway.head hstep, hchain (List.mem_singleton_self path), found'⟩

/-- No path is on a chain of the unfolding twice, and what a path is read as is fixed. -/
theorem Unfolds.coherent (h : Unfolds files path entries module)
    (hsound : Place.Unfoldable files limit ⟨[], path, entries⟩) : Coherent module := by
  refine ⟨fun inner other hinner hother hpath => ?_, fun inner hinner heq => ?_, ?_⟩
  · obtain ⟨_, first, others, -, -, hread, hunfolds⟩ := h.place_below hinner
    obtain ⟨_, first', others', -, -, hread', hunfolds'⟩ := h.place_below hother
    rw [hpath] at hread hunfolds
    cases hread.symm.trans hread'
    exact hunfolds.unique hunfolds'
  · obtain ⟨chain, first, _, hway, hmem, -, -⟩ := h.place_below hinner
    have hnodup := (hsound _ hway).nodup
    rw [Place.chain, heq, h.path_eq, List.nodup_append] at hnodup
    exact hnodup.2.2 path hmem path (List.mem_singleton_self path) rfl
  · intro inner hinner site hsite
    rcases hinner.eq_or_below with rfl | hbelow
    · obtain ⟨_, _, -, -, hunfolds⟩ := h.step hsite []
      exact hunfolds.path_eq
    · obtain ⟨_, _, _, -, -, -, hinner⟩ := h.place_below hbelow
      obtain ⟨_, _, -, -, hunfolds⟩ := hinner.step hsite []
      exact hunfolds.path_eq

end

/-- Every module loaded from a source with fixed answers has a dependency order. -/
theorem load_dependencyOrder {source : Source (StateM ρ)} {files : Source Id}
    (answers : Answers source files) {cache : Option Cache} (faithful : Faithful files cache)
    {limit : Nat} {path : String} {s : ρ} {modules : List (Module τ)}
    (loaded : (exec (load source.cached limit path) cache s).result = .ok modules) :
    ∀ root ∈ modules, ∃ order, (Graph.ofModule root).dependencyOrder = .ok order ∧
      DependencyOrder root order := by
  obtain ⟨_, _, _, hrun⟩ := answers.served.load (τ := τ) limit path cache s faithful
  rw [hrun] at loaded
  obtain ⟨first, others, _, hmodules⟩ := value_load_eq_ok.1 loaded
  intro root hroot
  have heach := value_mapM_eq_ok.1 hmodules
  obtain ⟨i, hi, rfl⟩ := List.mem_iff_getElem.1 hroot
  obtain ⟨hsound, hunfolds⟩ := unfoldable_of_loadSection (heach.get (heach.length_eq ▸ hi) hi)
  exact (hunfolds.coherent hsound).exists_dependencyOrder

/-- A file of two sections. Both lead to one and the same base, the first one on two ways. -/
def diamondFiles : Source (StateM Unit) where
  read path :=
    let section_ (imports : List String) : Entries :=
      [("imports", .list (imports.map fun name => .map [(name, .string (name ++ ".yaml"))])),
        ("pod", .null)]
    return .ok (
      if path = "main.yaml" then [section_ ["web", "db"], section_ ["db"]]
      else if path = "base.yaml" then [section_ []]
      else [section_ ["base"]])
  resolve _ written := return .ok written

def diamondAnswers : Source Id where
  read path := ((diamondFiles.read path).run ()).1
  resolve importer written := ((diamondFiles.resolve importer written).run ()).1

theorem load_diamond_dependencyOrder :
    Answers diamondFiles diamondAnswers ∧ Faithful diamondAnswers (some .empty) ∧
    ∃ modules : List (Module Unit),
      (exec (load diamondFiles.cached 2 "main.yaml") (some .empty) ()).result = .ok modules ∧
      modules.length = 2 ∧
      ∀ root ∈ modules, ∃ order, (Graph.ofModule root).dependencyOrder = .ok order ∧
        DependencyOrder root order := by
  have hanswers : Answers diamondFiles diamondAnswers := ⟨fun _ _ => rfl, fun _ _ _ => rfl⟩
  have hfaithful : Faithful diamondAnswers (some .empty) := faithful_empty diamondAnswers
  have hloaded : (exec (load diamondFiles.cached 2 "main.yaml" : Effect _ _ (List (Module Unit)))
      (some .empty) ()).result = .ok _ := rfl
  exact ⟨hanswers, hfaithful, _, hloaded, rfl, load_dependencyOrder hanswers hfaithful hloaded⟩

end ManifestModules.Module
