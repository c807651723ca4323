import ManifestModules.Proofs.Module.Alternatives

/-!
# Remarks on files with several sections

Only the first section of an imported file counts, and a module remarks on this for each of its
imports. Collected over a tree there is one remark for each import site whose file has more than one
section, however often a file is imported, and no other: the sections of the root are all loaded,
unless the root was loaded as an import.
-/

namespace ManifestModules.Module

variable {ρ τ : Type} {files : Source Id}

mutual

/-- The import sites in a tree: those of the module, followed by those below each of them. -/
def sites : Module τ → List (Import (Module τ))
  | ⟨_, imports, _, _, _, _⟩ => imports ++ sitesBelow imports

def sitesBelow : List (Import (Module τ)) → List (Import (Module τ))
  | [] => []
  | ⟨_, _, _, _, module⟩ :: rest => sites module ++ sitesBelow rest

end

theorem sitesBelow_eq_flatMap (imports : List (Import (Module τ))) :
    sitesBelow imports = imports.flatMap fun site => site.module.sites := by
  induction imports with
  | nil => rw [sitesBelow, List.flatMap_nil]
  | cons site rest ih =>
    rcases site with ⟨name, path, params, state, module⟩
    rw [sitesBelow, ih, List.flatMap_cons]

theorem sites_eq (module : Module τ) :
    module.sites = module.imports ++ module.imports.flatMap fun site => site.module.sites := by
  rcases module with ⟨path, imports, params, evaluated, resource, diagnostics⟩
  rw [sites, sitesBelow_eq_flatMap]

theorem importDiagnostics_eq_flatMap (imports : List (Import (Module τ))) :
    importDiagnostics imports = imports.flatMap fun site => site.module.allDiagnostics := by
  induction imports with
  | nil => rw [importDiagnostics, List.flatMap_nil]
  | cons site rest ih =>
    rcases site with ⟨name, path, params, state, module⟩
    rw [importDiagnostics, ih, List.flatMap_cons]

theorem allDiagnostics_eq (module : Module τ) : module.allDiagnostics =
    module.diagnostics ++ module.imports.flatMap fun site => site.module.allDiagnostics := by
  rcases module with ⟨path, imports, params, evaluated, resource, diagnostics⟩
  rw [allDiagnostics, importDiagnostics_eq_flatMap]

/-- The remark on a file with more than one section. -/
def remarkOn? (files : Source Id) (path : String) : Option String :=
  match (files.read path).run with
  | .ok sections =>
    if 1 < sections.length then
      some s!"{path} has {sections.length} document sections; only the first is imported"
    else none
  | .error _ => none

def remarkAt? (files : Source Id) (site : Import (Module τ)) : Option String :=
  remarkOn? files site.path

theorem remarkOn?_eq {path : String} {sections : List Entries}
    (h : (files.read path).run = .ok sections) :
    remarkOn? files path = extraSections? path sections.length := by
  simp only [remarkOn?, h]
  rfl

theorem filterMap_cons_toList {α β : Type} (f : α → Option β) (a : α) (l : List α) :
    (a :: l).filterMap f = (f a).toList ++ l.filterMap f := by
  cases h : f a <;> simp [h]

/-- What is imported at a site is what the first section of its file unfolds to. -/
def Grown (files : Source Id) (site : Import (Module τ)) : Prop :=
  ∃ first others, (files.read site.path).run = .ok (first :: others) ∧
    Unfolds files site.path first site.module

/-- A module remarks on its own imports, in the order of declaration. -/
theorem UnfoldsImports.remarks_eq {path : String} {declarations : List ImportDeclaration}
    {imports : List (Import (Module τ))} {remarks : List String} :
    UnfoldsImports files path declarations imports remarks →
    remarks = imports.filterMap (remarkAt? files) ∧ ∀ site ∈ imports, Grown files site
  | .nil => ⟨rfl, by simp⟩
  | .cons leads unfolds rest => by
    obtain ⟨hremarks, hsites⟩ := rest.remarks_eq
    refine ⟨?_, List.forall_mem_cons.2 ⟨⟨_, _, leads.read, unfolds⟩, hsites⟩⟩
    rw [filterMap_cons_toList, remarkAt?, remarkOn?_eq leads.read, ← hremarks]
    rfl

theorem Unfolds.remarks_eq {path : String} {entries : Entries} {module : Module τ}
    (h : Unfolds files path entries module) :
    module.diagnostics = module.imports.filterMap (remarkAt? files) ∧
      ∀ site ∈ module.imports, Grown files site := by
  obtain ⟨-, unfolds⟩ := h
  exact unfolds.remarks_eq

/-- The diagnostics of a tree are the remarks on the files at its import sites, all of which have
sections. -/
structure Reports (files : Source Id) (module : Module τ) : Prop where
  readable : ∀ site ∈ module.sites, ∃ first others,
    (files.read site.path).run = .ok (first :: others)
  diagnostics : module.allDiagnostics = module.sites.filterMap (remarkAt? files)

theorem Unfolds.reports {path : String} {entries : Entries} {module : Module τ}
    (h : Unfolds files path entries module) : Reports files module := by
  induction module using Module.induction generalizing path entries with
  | step module ih =>
    obtain ⟨hremarks, hgrown⟩ := h.remarks_eq
    have hreports (site : Import (Module τ)) (hsite : site ∈ module.imports) :
        Reports files site.module := by
      obtain ⟨first, others, -, hunfolds⟩ := hgrown site hsite
      exact ih site hsite hunfolds
    refine ⟨fun site hsite => ?_, ?_⟩
    · rw [sites_eq, List.mem_append, List.mem_flatMap] at hsite
      rcases hsite with hsite | ⟨upper, hupper, hsite⟩
      · obtain ⟨first, others, hread, -⟩ := hgrown site hsite
        exact ⟨first, others, hread⟩
      · exact (hreports upper hupper).readable site hsite
    · have hbelow : module.imports.flatMap (fun site => site.module.allDiagnostics) =
          module.imports.flatMap fun site => site.module.sites.filterMap (remarkAt? files) :=
        List.flatMap_congr fun site hsite => (hreports site hsite).diagnostics
      rw [allDiagnostics_eq, sites_eq, List.filterMap_append, List.filterMap_flatMap, hremarks,
        hbelow]

theorem Unfolds.reports_below {path : String} {entries : Entries} {module inner : Module τ}
    (h : Unfolds files path entries module) (hinner : module.Contains inner) :
    Reports files inner := by
  induction hinner generalizing path entries with
  | root => exact h.reports
  | imported hsite _ ih =>
    obtain ⟨first, others, -, hunfolds⟩ := h.remarks_eq.2 _ hsite
    exact ih hunfolds

/-- A module that is loaded as an import has one remark more than its section unfolds to. -/
theorem value_loadImport_eq_ok {limit : Nat} {path : String} {module : Module τ}
    (h : value (loadImport files limit path) = .ok module) :
    ∃ first others plain, (files.read (normalizePath path)).run = .ok (first :: others) ∧
      Unfolds files (normalizePath path) first plain ∧
      module = { plain with diagnostics := plain.diagnostics ++
        (extraSections? (normalizePath path) (others.length + 1)).toList } := by
  rw [value_loadImport] at h
  cases htarget : value (loadTarget files limit (limit + 1) [] (normalizePath path) :
      ExceptT Failure Id (Imported τ)) with
  | error e =>
    rw [htarget] at h
    cases h
  | ok imported =>
    rw [htarget] at h
    obtain ⟨-, room, first, others, plain, hroom, hread, hsection, rfl⟩ :=
      value_loadTarget_eq_ok.1 htarget
    obtain rfl := Nat.succ.inj hroom
    cases h
    exact ⟨first, others, plain, hread, (unfoldable_of_loadSection hsection).2, rfl⟩

/-- Every import of a file with several sections is remarked on just once. In the modules of a
loaded file, and in those below them, the diagnostics are the remarks on the import sites in the
tree: first those of the module itself in the order of declaration, then those below each of them. A
module loaded as an import is such a module with one remark more, on its own file, if that has more
than one section. -/
theorem load_reports {source : Source (StateM ρ)} (answers : Answers source files)
    {cache : Option Cache} (faithful : Faithful files cache) (limit : Nat) (path : String) (s : ρ) :
    (∀ modules : List (Module τ),
      (exec (load source.cached limit path) cache s).result = .ok modules →
      ∀ root ∈ modules, ∀ inner, root.Contains inner → Reports files inner) ∧
    ∀ module : Module τ, (exec (loadImport source.cached limit path) cache s).result = .ok module →
      let own := (remarkOn? files (normalizePath path)).toList
      ∃ plain : Module τ, (∀ inner, plain.Contains inner → Reports files inner) ∧
        module = { plain with diagnostics := plain.diagnostics ++ own } ∧
        module.allDiagnostics = plain.imports.filterMap (remarkAt? files) ++ own ++
          plain.imports.flatMap fun site => site.module.sites.filterMap (remarkAt? files) := by
  constructor
  · intro modules loaded root hroot inner hinner
    obtain ⟨_, _, _, hrun⟩ := answers.served.load (τ := τ) limit path cache s faithful
    rw [hrun] at loaded
    obtain ⟨sections, -, hunfolds⟩ := value_load_unfolds loaded
    obtain ⟨i, hi, rfl⟩ := List.mem_iff_getElem.1 hroot
    exact (hunfolds.get (hunfolds.length_eq ▸ hi) hi).reports_below hinner
  · intro module loaded own
    obtain ⟨_, _, _, hrun⟩ := answers.served.loadImport (τ := τ) limit path cache s faithful
    rw [hrun] at loaded
    obtain ⟨first, others, plain, hread, hunfolds, hmodule⟩ := value_loadImport_eq_ok loaded
    have hown : (extraSections? (normalizePath path) (others.length + 1)).toList = own :=
      congrArg Option.toList (remarkOn?_eq hread).symm
    rw [hown] at hmodule
    have hreports (inner : Module τ) (hinner : plain.Contains inner) : Reports files inner :=
      hunfolds.reports_below hinner
    refine ⟨plain, hreports, hmodule, ?_⟩
    rw [hmodule, allDiagnostics_eq, hunfolds.remarks_eq.1]
    congr 1
    apply List.flatMap_congr
    intro site hsite
    exact (hreports site.module (.imported hsite .root)).diagnostics

def sharedFiles : Source (StateM Unit) where
  read path :=
    let section_ (imports : List String) : Entries :=
      [("imports", .list (imports.map fun name => .map [(name, .string (name ++ ".yaml"))])),
        ("pod", .null)]
    return .ok (
      if path = "main.yaml" then [section_ ["web", "base"], section_ []]
      else if path = "web.yaml" then [section_ ["base"], section_ [], section_ []]
      else [section_ [], section_ []])
  resolve _ written := return .ok written

def sharedAnswers : Source Id where
  read path := ((sharedFiles.read path).run ()).1
  resolve importer written := ((sharedFiles.resolve importer written).run ()).1

theorem load_shared_reports :
    (Answers sharedFiles sharedAnswers ∧ Faithful sharedAnswers none) ∧
    (∃ modules : List (Module Unit),
      (exec (load sharedFiles.cached 2 "main.yaml") none ()).result = .ok modules ∧
      modules.map allDiagnostics =
        [["web.yaml has 3 document sections; only the first is imported",
          "base.yaml has 2 document sections; only the first is imported",
          "base.yaml has 2 document sections; only the first is imported"], []] ∧
      ∀ root ∈ modules, ∀ inner, root.Contains inner → Reports sharedAnswers inner) ∧
    ∃ module : Module Unit,
      (exec (loadImport sharedFiles.cached 2 "web.yaml") none ()).result = .ok module ∧
      module.allDiagnostics =
        ["base.yaml has 2 document sections; only the first is imported",
          "web.yaml has 3 document sections; only the first is imported"] ∧
      let own := (remarkOn? sharedAnswers (normalizePath "web.yaml")).toList
      ∃ plain : Module Unit, (∀ inner, plain.Contains inner → Reports sharedAnswers inner) ∧
        module = { plain with diagnostics := plain.diagnostics ++ own } ∧
        module.allDiagnostics = plain.imports.filterMap (remarkAt? sharedAnswers) ++ own ++
          plain.imports.flatMap fun site =>
            site.module.sites.filterMap (remarkAt? sharedAnswers) := by
  have hanswers : Answers sharedFiles sharedAnswers := ⟨fun _ _ => rfl, fun _ _ _ => rfl⟩
  have hfaithful : Faithful sharedAnswers none := trivial
  have hloaded : (exec (load sharedFiles.cached 2 "main.yaml" : Effect _ _ (List (Module Unit)))
      none ()).result = .ok _ := rfl
  have hloaded' : (exec (loadImport sharedFiles.cached 2 "web.yaml" : Effect _ _ (Module Unit))
      none ()).result = .ok _ := rfl
  have hwhole := load_reports (τ := Unit) hanswers hfaithful 2 "main.yaml" ()
  have hsingle := load_reports (τ := Unit) hanswers hfaithful 2 "web.yaml" ()
  exact ⟨⟨hanswers, hfaithful⟩, ⟨_, hloaded, by decide, hwhole.1 _ hloaded⟩,
    ⟨_, hloaded', by decide, hsingle.2 _ hloaded'⟩⟩

end ManifestModules.Module
