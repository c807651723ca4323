import ManifestModules.Proofs.Module.Session
import ManifestModules.Proofs.Section.Spelling

/-!
# The spelling of paths

Where import paths are relative to the importing file, it never matters how a path is spelled. To
load a file is to load it from a source in which all import paths are spelled canonically, and the
paths that are read and found in modules are canonical themselves. Two sources that differ only in
the spellings of import paths are therefore read in the same way, also through a cache.
-/

namespace ManifestModules

namespace Source

variable {m : Type → Type} [Monad m]

/-- The source with the canonical spellings of import paths in all that it reads. -/
def canonical (source : Source m) : Source m where
  read path := Except.map (List.map Section.canonicalEntries) <$> source.read path
  resolve := source.resolve

def Relative (source : Source m) : Prop :=
  ∀ importer written, source.resolve importer written =
    pure (.ok (resolveRelativePath importer written))

variable [LawfulMonad m]

theorem readSections_canonical (source : Source m) (path : String) :
    source.canonical.readSections path =
      List.map Section.canonicalEntries <$> source.readSections path := by
  simp only [readSections, canonical, liftM_map, bind_map_left, map_bind]
  apply bind_congr
  intro result
  cases result <;> simp [Except.map]

theorem Relative.cached {source : Source m} (h : source.Relative) : source.cached.Relative := by
  intro importer written
  change (liftM (source.resolve importer written) : StateT (Option Cache) m _) = _
  rw [h importer written]
  exact liftM_pure _

theorem Relative.resolvePath {source : Source m} (h : source.Relative) (importer written : String) :
    source.resolvePath importer written = pure (resolveRelativePath importer written) := by
  simp [Source.resolvePath, h importer written]

end Source

namespace Module

variable {m : Type → Type} [Monad m] [LawfulMonad m] {source : Source m} {σ ρ τ α β : Type}

section

variable (h : source.Relative)
include h

theorem loadImports_canonical (path : String)
    (loadTarget : String → ExceptT Failure m (Imported τ)) (declarations : List ImportDeclaration) :
    loadImports source.canonical path loadTarget
        (declarations.map ImportDeclaration.canonical) =
      loadImports source path loadTarget declarations := by
  induction declarations with
  | nil => rfl
  | cons declaration rest ih =>
    have hcanonical : source.canonical.Relative := h
    rw [List.map_cons, loadImports, loadImports, ih, hcanonical.resolvePath, h.resolvePath]
    simp [ImportDeclaration.canonical, resolveRelativePath_normalizePath]

omit h in
theorem liftM_bind_eq_of_map {f : α → α} (r : Except Failure α) {k k' : α → ExceptT Failure m β}
    (hk : ∀ a, k (f a) = k' a) :
    ((liftM (r.map f) : ExceptT Failure m α) >>= k) = (liftM r : ExceptT Failure m α) >>= k' := by
  cases r with
  | error e =>
    have herror (k : α → ExceptT Failure m β) :
        ((liftM (Except.error e) : ExceptT Failure m α) >>= k) = throw e := by
      apply ExceptT.ext
      exact pure_bind (Except.error e : Except Failure α) _
    exact (herror k).trans (herror k').symm
  | ok a => exact (pure_bind (f a) k).trans ((hk a).trans (pure_bind a k').symm)

omit h in
theorem mapM_map (f : β → α) (g : α → ExceptT Failure m ρ) (l : List β) :
    (l.map f).mapM g = l.mapM fun b => g (f b) := by
  induction l with
  | nil => rfl
  | cons b l ih => rw [List.map_cons, List.mapM_cons, List.mapM_cons, ih]

theorem loadSection_canonical (path : String)
    (loadTarget : String → ExceptT Failure m (Imported τ)) (entries : Entries) :
    loadSection source.canonical path loadTarget (Section.canonicalEntries entries) =
      loadSection source path loadTarget entries := by
  rw [loadSection, loadSection, Section.ofEntries_canonical]
  apply liftM_bind_eq_of_map
  intro found
  have himports := loadImports_canonical h path loadTarget found.imports
  simp only [Section.canonical, himports]

theorem loadTarget_canonical (limit room : Nat) (chain : List String) (path : String) :
    (loadTarget source.canonical limit room chain path : ExceptT Failure m (Imported τ)) =
      loadTarget source limit room chain path := by
  induction room generalizing chain path with
  | zero =>
    cases hcycle : cycleTo? chain path with
    | some cycle => rw [loadTarget_again hcycle, loadTarget_again hcycle]
    | none => rw [loadTarget_noRoom hcycle, loadTarget_noRoom hcycle]
  | succ room ih =>
    cases hcycle : cycleTo? chain path with
    | some cycle => rw [loadTarget_again hcycle, loadTarget_again hcycle]
    | none =>
      rw [loadTarget_room hcycle, loadTarget_room hcycle, Source.readSections_canonical,
        bind_map_left]
      apply bind_congr
      intro sections
      cases sections with
      | nil => rfl
      | cons first rest =>
        have hbelow := funext (ih (chain ++ [path]))
        simp [hbelow, loadSection_canonical h]

/-- A load may take all import paths in their canonical spellings. -/
theorem load_canonical (limit : Nat) (path : String) :
    (load source.canonical limit path : ExceptT Failure m (List (Module τ))) =
      load source limit path := by
  rw [load, load, Source.readSections_canonical, bind_map_left]
  apply bind_congr
  intro sections
  cases sections with
  | nil => rfl
  | cons first rest =>
    have hbelow := funext (loadTarget_canonical (τ := τ) h limit limit [normalizePath path])
    simp only [List.map_cons, hbelow]
    rw [← List.map_cons, mapM_map]
    simp only [loadSection_canonical h]

theorem loadImport_canonical (limit : Nat) (path : String) :
    (loadImport source.canonical limit path : ExceptT Failure m (Module τ)) =
      loadImport source limit path := by
  rw [loadImport, loadImport, loadTarget_canonical h]

end

/-! ## Canonical trees -/

/-- All paths in the tree are spelled canonically. -/
def Canonical (module : Module τ) : Prop :=
  ∀ inner, module.Contains inner →
    normalizePath inner.path = inner.path ∧
      ∀ site ∈ inner.imports, normalizePath site.path = site.path

theorem Canonical.intro {module : Module τ} (path : normalizePath module.path = module.path)
    (imports : ∀ site ∈ module.imports,
      normalizePath site.path = site.path ∧ site.module.Canonical) : module.Canonical := by
  intro inner hinner
  cases hinner with
  | root => exact ⟨path, fun site hsite => (imports site hsite).1⟩
  | imported mem contains => exact (imports _ mem).2 inner contains

theorem canonical_established {C : Type} {source : Source (StateT C (StateM ρ))}
    (h : source.Relative) :
    Established source (fun path => normalizePath path = path) (Canonical : Module τ → Prop) where
  resolved importer written := by
    rw [h.resolvePath]
    exact Yields.pure (normalizePath_resolveRelativePath importer written)
  built diagnostics hpath _ _ sites := .intro hpath fun site hsite => (sites site hsite).2
  remarked module diagnostics hmodule := by
    obtain ⟨hpath, himports⟩ := hmodule module .root
    refine .intro hpath fun site hsite => ⟨himports site hsite, fun inner hinner => ?_⟩
    exact hmodule inner (.imported hsite hinner)

/-! ## Other spellings -/

/-- What is read is the same, but for the spellings of import paths. -/
def Respelled (sections sections' : Except Trouble (List Entries)) : Prop :=
  sections.map (List.map Section.canonicalEntries) =
    sections'.map (List.map Section.canonicalEntries)

inductive CachesRespelled : Option Cache → Option Cache → Prop
  | absent : CachesRespelled none none
  | present {cache cache' : Cache}
    (documents : ∀ path,
      (cache.documents.lookup path).map (List.map Section.canonicalEntries) =
        (cache'.documents.lookup path).map (List.map Section.canonicalEntries))
    (hits : cache.hits = cache'.hits) (misses : cache.misses = cache'.misses) :
    CachesRespelled (some cache) (some cache')

theorem CachesRespelled.learned {cache cache' : Cache} {r r' : Except Trouble (List Entries)}
    (h : CachesRespelled (some cache) (some cache')) (path : String) (hr : Respelled r r') :
    CachesRespelled (some (learned cache path r)) (some (learned cache' path r')) := by
  cases h with
  | present documents hits misses =>
    cases r with
    | error trouble =>
      cases r' with
      | error trouble' => exact .present documents hits misses
      | ok found' => cases hr
    | ok found =>
      cases r' with
      | error trouble' => cases hr
      | ok found' =>
        refine .present (fun other => ?_) hits misses
        have hfound := Except.ok.inj hr
        simp only [Module.learned, Cache.insert, Table.lookup_put]
        by_cases hother : other = path
        · simp [hother, hfound]
        · simp [hother, documents other]

/-- Two sources read the same, but for the spellings of import paths. -/
def SourcesRespelled (source source' : Source (StateM ρ)) : Prop :=
  ∀ path s, Respelled ((source.read path).run s).1 ((source'.read path).run s).1 ∧
    ((source.read path).run s).2 = ((source'.read path).run s).2

def respelled (ρ : Type) :
    LoadRelation (StateT (Option Cache) (StateM ρ)) (StateT (Option Cache) (StateM ρ)) where
  Rel := Matched CachesRespelled
  pure := Matched.pure
  throw := Matched.throw
  bind := Matched.bind

section

variable {source source' : Source (StateM ρ)} (h : SourcesRespelled source source')
include h

theorem SourcesRespelled.cached {cache cache' : Option Cache}
    (hcaches : CachesRespelled cache cache') (path : String) (s : ρ) :
    ∃ r r' after after' s', Respelled r r' ∧ CachesRespelled after after' ∧
      ((source.cached.read path).run cache).run s = ((r, after), s') ∧
      ((source'.cached.read path).run cache').run s = ((r', after'), s') := by
  obtain ⟨hread, hworld⟩ := h path s
  cases hcaches with
  | absent =>
    rw [run_cached_read_none, run_cached_read_none, hworld]
    exact ⟨_, _, _, _, _, hread, .absent, rfl, rfl⟩
  | @present cache cache' documents hits misses =>
    have hpath := documents path
    cases hfound : cache.documents.lookup path with
    | some sections =>
      rw [hfound, Option.map_some] at hpath
      obtain ⟨sections', hfound', hsections⟩ := Option.map_eq_some_iff.1 hpath.symm
      have hcounted : CachesRespelled (some { cache with hits := cache.hits + 1 })
          (some { cache' with hits := cache'.hits + 1 }) :=
        .present documents (congrArg (· + 1) hits) misses
      exact ⟨.ok sections, .ok sections', _, _, s, congrArg Except.ok hsections.symm, hcounted,
        run_cached_read_hit source path s hfound, run_cached_read_hit source' path s hfound'⟩
    | none =>
      rw [hfound, Option.map_none] at hpath
      have hfound' := Option.map_eq_none_iff.1 hpath.symm
      have hcounted : CachesRespelled (some { cache with misses := cache.misses + 1 })
          (some { cache' with misses := cache'.misses + 1 }) :=
        .present documents hits (congrArg (· + 1) misses)
      rw [run_cached_read_miss source path s hfound, run_cached_read_miss source' path s hfound']
      simp only [hworld]
      exact ⟨_, _, _, _, _, hread, hcounted.learned path hread, rfl, rfl⟩

theorem SourcesRespelled.readSections (path : String) :
    (respelled ρ).Rel (source.cached.canonical.readSections path)
      (source'.cached.canonical.readSections path) := by
  intro cache cache' s hcaches
  obtain ⟨r, r', after, after', s', hr, hafter, hrun, hrun'⟩ := h.cached hcaches path s
  have hcanonical {source : Source (StateM ρ)} {cache : Option Cache} {left}
      (hrun : ((source.cached.read path).run cache).run s = left) :
      ((source.cached.canonical.read path).run cache).run s =
        ((left.1.1.map (List.map Section.canonicalEntries), left.1.2), left.2) :=
    hrun ▸ rfl
  rw [exec_readSections (hcanonical hrun), exec_readSections (hcanonical hrun')]
  simp only [show r.map _ = r'.map _ from hr]
  exact ⟨_, after, after', s', hafter, rfl, rfl⟩

theorem SourcesRespelled.served (hrelative : source.Relative) (hrelative' : source'.Relative) :
    (respelled ρ).Served source.cached.canonical source'.cached.canonical := by
  refine ⟨h.readSections, fun importer written => ?_⟩
  have hcanonical : source.cached.canonical.Relative := hrelative.cached
  have hcanonical' : source'.cached.canonical.Relative := hrelative'.cached
  rw [hcanonical.resolvePath, hcanonical'.resolvePath]
  exact (respelled ρ).pure _

variable (hrelative : source.Relative) (hrelative' : source'.Relative) (limit : Nat)
  {path path' : String} (hpath : normalizePath path = normalizePath path')
include hrelative hrelative' hpath

theorem SourcesRespelled.load : (respelled ρ).Rel
    (load source.cached limit path : Effect _ _ (List (Module τ)))
    (Module.load source'.cached limit path') := by
  -- Both loads are those from the canonical sources, which are asked with the same paths.
  have hsame : (Module.load source.cached limit path : Effect _ _ (List (Module τ))) =
      Module.load source.cached limit path' := by
    rw [Module.load, Module.load, hpath]
  rw [hsame, ← load_canonical hrelative.cached, ← load_canonical hrelative'.cached]
  exact (h.served hrelative hrelative').load limit path'

theorem SourcesRespelled.loadImport : (respelled ρ).Rel
    (loadImport source.cached limit path : Effect _ _ (Module τ))
    (Module.loadImport source'.cached limit path') := by
  rw [← loadImport_canonical hrelative.cached, ← loadImport_canonical hrelative'.cached,
    Module.loadImport, hpath]
  exact (h.served hrelative hrelative').loadImport limit path'

end

def relativeTo (documents : String → Except Trouble (List Entries)) : Source Id where
  read path := documents path
  resolve importer written := .ok (resolveRelativePath importer written)

theorem recorded_relativeTo (documents : String → Except Trouble (List Entries)) :
    (recorded (σ := σ) (relativeTo documents)).Relative :=
  fun _ _ => rfl

section

variable {documents documents' : String → Except Trouble (List Entries)}
  (hdocuments : ∀ path, Respelled (documents path) (documents' path)) (limit : Nat)
  {path path' : String} (hpath : normalizePath path = normalizePath path')
  {cache cache' : Option Cache} (hcaches : CachesRespelled cache cache')
  (reads : List String) (s : σ)
include hdocuments hpath hcaches

/-- How paths are spelled does not matter. If import paths are spelled otherwise in the documents,
and the path to be loaded is too, then the same is read, the same modules are made or the same
failure is met, and the cache is found of use as often. In all modules that are loaded the paths are
spelled canonically. -/
theorem load_respelled :
    (let whole := exec (load (recorded (relativeTo documents)).cached limit path :
      Effect _ _ (List (Module τ))) cache (reads, s)
    let whole' := exec (load (recorded (relativeTo documents')).cached limit path' :
      Effect _ _ (List (Module τ))) cache' (reads, s)
    (whole.result = whole'.result ∧ whole.world = whole'.world ∧
      CachesRespelled whole.state whole'.state) ∧
    ∀ modules, whole.result = .ok modules → ∀ module ∈ modules, module.Canonical) ∧
    (let single := exec (loadImport (recorded (relativeTo documents)).cached limit path :
      Effect _ _ (Module τ)) cache (reads, s)
    let single' := exec (loadImport (recorded (relativeTo documents')).cached limit path' :
      Effect _ _ (Module τ)) cache' (reads, s)
    (single.result = single'.result ∧ single.world = single'.world ∧
      CachesRespelled single.state single'.state) ∧
    ∀ module, single.result = .ok module → module.Canonical) := by
  have hsources : SourcesRespelled (recorded (σ := σ) (relativeTo documents))
      (recorded (relativeTo documents')) := fun path _ => ⟨hdocuments path, rfl⟩
  have hrelative := recorded_relativeTo (σ := σ) documents
  have hrelative' := recorded_relativeTo (σ := σ) documents'
  constructor
  · obtain ⟨r, after, after', world, hafter, hrun, hrun'⟩ :=
      hsources.load (τ := τ) hrelative hrelative' limit hpath cache cache' (reads, s) hcaches
    have hyields := (canonical_established (τ := τ) hrelative.cached).load limit
      (normalizePath_normalizePath path) cache (reads, s)
    rw [hrun] at hyields
    simp only [hrun, hrun']
    exact ⟨⟨trivial, trivial, hafter⟩, hyields⟩
  · obtain ⟨r, after, after', world, hafter, hrun, hrun'⟩ :=
      hsources.loadImport (τ := τ) hrelative hrelative' limit hpath cache cache' (reads, s) hcaches
    have hyields := (canonical_established (τ := τ) hrelative.cached).loadImport limit
      (normalizePath_normalizePath path) cache (reads, s)
    rw [hrun] at hyields
    simp only [hrun, hrun']
    exact ⟨⟨trivial, trivial, hafter⟩, hyields⟩

end

def packageDocuments (web db : String) (path : String) : Except Trouble (List Entries) :=
  .ok (if path = "app/main.yaml" then
    [[("imports", .list [.map [("web", .string web)], .map [("db", .string db)]]), ("pod", .null)]]
  else [[("svc", .null)]])

theorem packageDocuments_respelled {web web' db db' : String}
    (hweb : normalizePath web = normalizePath web') (hdb : normalizePath db = normalizePath db')
    (path : String) :
    Respelled (packageDocuments web db path) (packageDocuments web' db' path) := by
  by_cases hpath : path = "app/main.yaml"
  · simp [Respelled, packageDocuments, hpath, Except.map, Section.canonicalEntries,
      Section.canonicalImports, Section.canonicalImport, Section.canonicalPath, Table.mapValues,
      Section.importsKey, Section.paramsKey, hweb, hdb]
  · simp [Respelled, packageDocuments, hpath]

theorem load_package_respelled :
    let documents := packageDocuments "../lib/x.yaml" "../lib/x.yaml"
    let documents' := packageDocuments "./../lib//x.yaml" "../lib/y/../x.yaml"
    (∀ path, Respelled (documents path) (documents' path)) ∧
    normalizePath "app/main.yaml" = normalizePath "./app//main.yaml" ∧
    CachesRespelled (some .empty) (some .empty) ∧
    let whole := exec (load (recorded (relativeTo documents)).cached 1 "app/main.yaml" :
      Effect _ _ (List (Module Unit))) (some .empty) ([], ())
    let whole' := exec (load (recorded (relativeTo documents')).cached 1 "./app//main.yaml" :
      Effect _ _ (List (Module Unit))) (some .empty) ([], ())
    whole.result.isOk ∧ whole.world = (["app/main.yaml", "lib/x.yaml"], ()) ∧
    (whole.result = whole'.result ∧ whole.world = whole'.world ∧
      CachesRespelled whole.state whole'.state) ∧
    ∀ modules, whole.result = .ok modules → ∀ module ∈ modules, module.Canonical := by
  intro documents documents'
  have hdocuments : ∀ path, Respelled (documents path) (documents' path) :=
    packageDocuments_respelled (by decide) (by decide)
  have hpath : normalizePath "app/main.yaml" = normalizePath "./app//main.yaml" := by decide
  have hcaches : CachesRespelled (some .empty) (some .empty) := .present (fun _ => rfl) rfl rfl
  exact ⟨hdocuments, hpath, hcaches, rfl, rfl,
    (load_respelled hdocuments 1 hpath hcaches [] ()).1⟩

end Module

end ManifestModules
