import ManifestModules.Proofs.Graph.Edges
import ManifestModules.Proofs.Graph.Rows
import ManifestModules.Proofs.Module.Dependencies

/-!
# Outlines of loaded modules

A module tree has an outline of its own, with one line for each import site. The graph of the tree
has forgotten the sites: it holds each path once, and its edges were added while a walk went up and
down. Still it shows the imports of every module as they are declared, and its outline is that of
the tree.
-/

namespace ManifestModules

theorem Outline.label_imported (name path : String) (below : List Outline) :
    Outline.label (.imported name path below) = name ++ ": " ++ path := rfl

namespace Module

variable {ρ τ : Type}

mutual

/-- The lines for all that a module imports, behind a margin. -/
def outlineLines (margin : String) : Module τ → List String
  | ⟨_, imports, _, _, _, _⟩ => importLines margin imports

def importLines (margin : String) : List (Import (Module τ)) → List String
  | [] => []
  | ⟨name, path, _, _, module⟩ :: rest =>
    let connector := if rest.isEmpty then "└── " else "├── "
    let deeper := if rest.isEmpty then "    " else "│   "
    (margin ++ connector ++ name ++ ": " ++ path) :: outlineLines (margin ++ deeper) module ++
      importLines margin rest

end

/-- The text of a module tree: the path of the root, then the lines of its import sites. -/
def outline (root : Module τ) : String :=
  String.join ((root.path :: outlineLines "" root).map (· ++ "\n"))

mutual

def branches : Module τ → List Outline
  | ⟨_, imports, _, _, _, _⟩ => importBranches imports

def importBranches : List (Import (Module τ)) → List Outline
  | [] => []
  | ⟨name, path, _, _, module⟩ :: rest =>
    .imported name path (branches module) :: importBranches rest

end

theorem importBranches_eq_map (imports : List (Import (Module τ))) : importBranches imports =
    imports.map fun site => .imported site.name site.path (branches site.module) := by
  induction imports with
  | nil => simp [importBranches]
  | cons site rest ih => simp [importBranches, ih]

theorem branches_eq_map (module : Module τ) : branches module =
    module.imports.map fun site => .imported site.name site.path (branches site.module) := by
  rcases module with ⟨path, imports, params, evaluated, resource, diagnostics⟩
  rw [branches, importBranches_eq_map]

mutual

theorem listLines_branches (margin : String) : (module : Module τ) →
    Outline.listLines margin (branches module) = outlineLines margin module
  | ⟨_, imports, _, _, _, _⟩ => by
    rw [branches, outlineLines]
    exact listLines_importBranches margin imports

theorem listLines_importBranches (margin : String) : (imports : List (Import (Module τ))) →
    Outline.listLines margin (importBranches imports) = importLines margin imports
  | [] => by simp [importBranches, Outline.listLines, importLines]
  | ⟨name, path, params, state, module⟩ :: rest => by
    have hlast : (importBranches rest).isEmpty = rest.isEmpty := by
      simp [importBranches_eq_map]
    simp [importBranches, Outline.listLines, Outline.lines, Outline.label_imported, importLines,
      hlast, listLines_branches _ module, listLines_importBranches margin rest,
      String.append_assoc]

end

theorem render_branches (root : Module τ) :
    Outline.render root.path (branches root) = outline root := by
  rw [Outline.render, listLines_branches, outline]

section

variable {root module target inner : Module τ}

/-- A module in a tree is known by its path. -/
theorem Coherent.eq_of_contains (h : Coherent root) (hinner : root.Contains inner)
    (htarget : root.Contains target) (hpath : inner.path = target.path) : inner = target := by
  rcases htarget.eq_or_below with rfl | hbelow
  · rcases hinner.eq_or_below with rfl | hbelow
    · rfl
    · exact absurd hpath (h.apart inner hbelow)
  · exact h.eq_of_path_eq hinner hbelow hpath

/-- Its path does not come again below it. -/
theorem Coherent.ne_path_of_below (h : Coherent root) (htarget : root.Contains target)
    (hbelow : target.Below inner) : inner.path ≠ target.path := by
  intro hpath
  obtain rfl := h.eq_of_contains (htarget.trans_below hbelow).contains htarget hpath
  exact not_below_self inner hbelow

def edges (module : Module τ) : List ImportEdge :=
  module.imports.map fun site => ⟨module.path, site.name, site.path⟩

open ManifestModules.Graph

theorem moduleEdges_eq (module : Module τ) :
    moduleEdges module = importEdges module.path module.imports := by
  rcases module with ⟨path, imports, params, evaluated, resource, diagnostics⟩
  rw [moduleEdges]

theorem filter_moduleEdges_eq_nil {path : String}
    (h : ∀ inner, module.Contains inner → inner.path ≠ path) :
    (moduleEdges module).filter (·.importer = path) = [] := by
  rw [List.filter_eq_nil_iff]
  intro edge hedge
  obtain ⟨inner, hinner, site, hsite, rfl⟩ := (mem_moduleEdges module).1 hedge
  simpa using h inner hinner

/-- In a tree below which the path of its root does not come again, only the imports of the root
start from there. -/
theorem filter_moduleEdges_self (h : ∀ inner, module.Below inner → inner.path ≠ module.path) :
    (moduleEdges module).filter (·.importer = module.path) = module.edges := by
  have hnone (site : Import (Module τ)) (hsite : site ∈ module.imports) :=
    filter_moduleEdges_eq_nil fun inner hinner => h inner ⟨site, hsite, hinner⟩
  rw [moduleEdges_eq, edges]
  generalize module.imports = imports at hnone
  induction imports with
  | nil => simp [importEdges]
  | cons site rest ih =>
    obtain ⟨hsite, hrest⟩ := List.forall_mem_cons.1 hnone
    simp [importEdges, hsite, ih hrest]

/-- The first of the sites that lead to a module adds its imports first. -/
theorem isPrefix_filter_importEdges {importer : String} {imports : List (Import (Module τ))}
    (himporter : importer ≠ target.path)
    (hleading : ∀ site ∈ imports, site.module.Contains target →
      target.edges <+: (moduleEdges site.module).filter (·.importer = target.path))
    (hother : ∀ site ∈ imports, ¬ site.module.Contains target →
      (moduleEdges site.module).filter (·.importer = target.path) = [])
    (hleads : ∃ site ∈ imports, site.module.Contains target) :
    target.edges <+: (importEdges importer imports).filter (·.importer = target.path) := by
  induction imports with
  | nil => simp at hleads
  | cons site rest ih =>
    obtain ⟨hsite, hrest⟩ := List.forall_mem_cons.1 hleading
    obtain ⟨hsite', hrest'⟩ := List.forall_mem_cons.1 hother
    rw [importEdges, List.cons_append, List.filter_cons_of_neg (by simpa using himporter),
      List.filter_append]
    by_cases hhere : site.module.Contains target
    · exact (hsite hhere).trans (List.prefix_append _ _)
    · rw [hsite' hhere]
      apply ih hrest hrest'
      simpa [hhere] using hleads

theorem edges_isPrefix (hbelow : ∀ inner, target.Below inner → inner.path ≠ target.path)
    (hsame : ∀ inner, module.Contains inner → inner.path = target.path → inner = target)
    (hcontains : module.Contains target) :
    target.edges <+: (moduleEdges module).filter (·.importer = target.path) := by
  induction module using Module.induction with
  | step module ih =>
    by_cases hpath : module.path = target.path
    · obtain rfl := hsame module .root hpath
      simp only [filter_moduleEdges_self hbelow, List.prefix_rfl]
    have hsites (site : Import (Module τ)) (hsite : site ∈ module.imports) :
        ∀ inner, site.module.Contains inner → inner.path = target.path → inner = target :=
      fun inner hinner => hsame inner (.imported hsite hinner)
    rw [moduleEdges_eq]
    apply isPrefix_filter_importEdges hpath
    · intro site hsite hhere
      exact ih site hsite (hsites site hsite) hhere
    · intro site hsite hhere
      apply filter_moduleEdges_eq_nil
      intro inner hinner heq
      exact hhere (hsites site hsite inner hinner heq ▸ hinner)
    · cases hcontains with
      | root => exact absurd rfl hpath
      | imported hsite hinner => exact ⟨_, hsite, hinner⟩

/-- The graph of a tree shows the imports of each module as they are declared. -/
theorem Coherent.directImports_eq (h : Coherent root) (htarget : root.Contains target)
    (hnames : (target.imports.map (·.name)).Nodup) :
    (ofModule root).directImports target.path =
      target.imports.map fun site => (site.name, site.path) := by
  obtain ⟨repeated, hrepeated⟩ := edges_isPrefix (fun _ => h.ne_path_of_below htarget)
    (fun inner hinner => h.eq_of_contains hinner htarget) htarget
  have hsubset : repeated ⊆ target.edges := by
    intro edge hedge
    have hmem := List.mem_append_right target.edges hedge
    rw [hrepeated, List.mem_filter, mem_moduleEdges, decide_eq_true_eq] at hmem
    obtain ⟨⟨inner, hinner, site, hsite, rfl⟩, hpath⟩ := hmem
    obtain rfl := h.eq_of_contains hinner htarget hpath
    exact List.mem_map_of_mem hsite
  have hnodup : target.edges.Nodup := by
    apply List.Nodup.of_map (·.name)
    rw [edges, List.map_map]
    exact hnames
  have houtgoing : (ofModule root).outgoing target.path = target.edges := by
    rw [ofModule_eq, outgoing_addAll (by simp [empty]), ← hrepeated,
      eraseDups_append_of_subset hnodup hsubset]
  rw [directImports, houtgoing, edges, List.map_map]
  rfl

end

section

variable {root module : Module τ} {site : Import (Module τ)} {fuel : Nat} {ancestors : List String}

open ManifestModules.Graph

/-- The way from the root to a module, with fuel for all nodes that are not on it. -/
structure Descends (root : Module τ) (fuel : Nat) (ancestors : List String)
    (module : Module τ) : Prop where
  nodup : ancestors.Nodup
  above : ∀ path ∈ ancestors, ∃ upper, root.Contains upper ∧ upper.path = path ∧
    upper.Contains module
  room : ancestors.length + fuel = (ofModule root).nodes.length + 1

namespace Descends

theorem start (root : Module τ) :
    Descends root (ofModule root).nodes.length [root.path] root := by
  refine ⟨by simp, ?_, by simp [Nat.add_comm]⟩
  intro path hpath
  exact ⟨root, .root, (List.mem_singleton.1 hpath).symm, .root⟩

/-- The ancestors are nodes, so there is fuel as long as there are modules. -/
theorem fuel_pos (hcoherent : Coherent root) (h : Descends root fuel ancestors module) :
    0 < fuel := by
  have hnodes : ancestors ⊆ (ofModule root).nodes := by
    intro path hpath
    obtain ⟨upper, hupper, hsame, -⟩ := h.above path hpath
    exact hcoherent.mem_nodes_ofModule.2 ⟨upper, hupper, hsame⟩
  have hlength := (List.subperm_of_subset h.nodup hnodes).length_le
  have hroom := h.room
  omega

theorem not_mem (hcoherent : Coherent root) (h : Descends root fuel ancestors module)
    (hsite : site ∈ module.imports) : site.module.path ∉ ancestors := by
  intro hmem
  obtain ⟨upper, hupper, hpath, hcontains⟩ := h.above _ hmem
  exact hcoherent.ne_path_of_below hupper (hcontains.trans_below (.of_mem hsite)) hpath.symm

theorem step (hcoherent : Coherent root) (hmodule : root.Contains module)
    (h : Descends root (fuel + 1) ancestors module) (hsite : site ∈ module.imports) :
    Descends root fuel (site.module.path :: ancestors) site.module := by
  refine ⟨List.nodup_cons.2 ⟨h.not_mem hcoherent hsite, h.nodup⟩, ?_, ?_⟩
  · intro path hpath
    rcases List.mem_cons.1 hpath with rfl | hpath
    · exact ⟨site.module, (hmodule.trans_below (.of_mem hsite)).contains, rfl, .root⟩
    · obtain ⟨upper, hupper, hsame, hcontains⟩ := h.above path hpath
      exact ⟨upper, hupper, hsame, (hcontains.trans_below (.of_mem hsite)).contains⟩
  · have hroom := h.room
    simp only [List.length_cons]
    omega

end Descends

/-- The graph of a tree unfolds to the tree. -/
theorem Coherent.branches_eq (h : Coherent root)
    (hnames : ∀ inner, root.Contains inner → (inner.imports.map (·.name)).Nodup)
    (hmodule : root.Contains module) (hdescends : Descends root fuel ancestors module) :
    (ofModule root).branches none fuel ancestors module.path = branches module := by
  induction module using Module.induction generalizing fuel ancestors with
  | step module ih =>
    obtain ⟨fuel, rfl⟩ := Nat.exists_eq_add_one.2 (hdescends.fuel_pos h)
    rw [branches_imports rfl, h.directImports_eq hmodule (hnames module hmodule), List.map_map,
      branches_eq_map]
    apply List.map_congr_left
    intro site hsite
    have hbelow := (hmodule.trans_below (.of_mem hsite)).contains
    have hrest := ih site hsite hbelow (hdescends.step h hmodule hsite)
    simp [branch, ← h.placed module hmodule site hsite, hdescends.not_mem h hsite, hrest]

theorem Coherent.outline_eq (h : Coherent root)
    (hnames : ∀ inner, root.Contains inner → (inner.imports.map (·.name)).Nodup) :
    (ofModule root).outline root.path none = outline root := by
  rw [Graph.outline, h.branches_eq hnames .root (.start root), render_branches]

end

theorem Formed.of_contains {module inner : Module τ} (h : Formed module)
    (hcontains : module.Contains inner) : Formed inner := by
  induction hcontains with
  | root => exact h
  | imported hsite _ ih =>
    cases h with
    | intro _ _ _ _ _ _ imports => exact ih (imports _ hsite)

theorem coherent_of_load {source : Source (StateM ρ)} {files : Source Id}
    (answers : Answers source files) {cache : Option Cache} (faithful : Faithful files cache)
    {limit : Nat} {path : String} {s : ρ} {modules : List (Module τ)}
    (loaded : (exec (load source.cached limit path) cache s).result = .ok modules)
    {root : Module τ} (hroot : root ∈ modules) : Coherent root := by
  obtain ⟨_, _, _, hrun⟩ := answers.served.load (τ := τ) limit path cache s faithful
  rw [hrun] at loaded
  obtain ⟨first, others, _, hmodules⟩ := value_load_eq_ok.1 loaded
  have heach := value_mapM_eq_ok.1 hmodules
  obtain ⟨i, hi, rfl⟩ := List.mem_iff_getElem.1 hroot
  obtain ⟨hsound, hunfolds⟩ := unfoldable_of_loadSection (heach.get (heach.length_eq ▸ hi) hi)
  exact hunfolds.coherent hsound

/-- The graph of a loaded module shows its tree: under the path of each module just the imports of
that module, in the order of declaration, and as its outline the lines of the tree, one for each
site of an import and no other. -/
theorem load_outline {source : Source (StateM ρ)} {files : Source Id}
    (answers : Answers source files) {cache : Option Cache} (faithful : Faithful files cache)
    {limit : Nat} {path : String} {s : ρ} {modules : List (Module τ)}
    (loaded : (exec (load source.cached limit path) cache s).result = .ok modules) :
    ∀ root ∈ modules,
      (∀ inner, root.Contains inner → (Graph.ofModule root).directImports inner.path =
        inner.imports.map fun site => (site.name, site.path)) ∧
      (Graph.ofModule root).outline root.path none = outline root := by
  intro root hroot
  have hcoherent := coherent_of_load answers faithful loaded hroot
  have hformed : Formed root := (Loaded.section source limit path cache s loaded hroot).formed
  have hnames (inner : Module τ) (hinner : root.Contains inner) :=
    (hformed.of_contains hinner).names_nodup
  constructor
  · intro inner hinner
    exact hcoherent.directImports_eq hinner (hnames inner hinner)
  · exact hcoherent.outline_eq hnames

theorem load_diamond_outline :
    Answers diamondFiles diamondAnswers ∧ Faithful diamondAnswers none ∧
    ∃ modules : List (Module Unit),
      (exec (load diamondFiles.cached 2 "main.yaml") none ()).result = .ok modules ∧
      modules.map outline =
        ["main.yaml\n├── web: web.yaml\n│   └── base: base.yaml\n└── db: db.yaml\n" ++
          "    └── base: base.yaml\n",
        "main.yaml\n└── db: db.yaml\n    └── base: base.yaml\n"] ∧
      ∀ root ∈ modules,
        (∀ inner, root.Contains inner → (Graph.ofModule root).directImports inner.path =
          inner.imports.map fun site => (site.name, site.path)) ∧
        (Graph.ofModule root).outline root.path none = outline root := by
  have hanswers : Answers diamondFiles diamondAnswers := ⟨fun _ _ => rfl, fun _ _ _ => rfl⟩
  have hfaithful : Faithful diamondAnswers none := trivial
  have hloaded : (exec (load diamondFiles.cached 2 "main.yaml" : Effect _ _ (List (Module Unit)))
      none ()).result = .ok _ := rfl
  exact ⟨hanswers, hfaithful, _, hloaded, by decide, load_outline hanswers hfaithful hloaded⟩

end Module

end ManifestModules
