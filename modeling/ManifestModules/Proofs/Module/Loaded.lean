import ManifestModules.Module.Load
import ManifestModules.Proofs.Effect
import Mathlib.Data.List.Basic

/-!
# Loaded modules

Whatever the source, and with or without a cache, loading makes module trees in which nothing is
evaluated and every resource is a single tag with its body. What holds for the modules that loading
makes is established section by section.
-/

namespace ManifestModules

namespace Section

theorem readImportList_names {items : List Value} {before imports : List ImportDeclaration}
    (h : readImportList before items = .ok imports) (hbefore : (before.map (·.name)).Nodup) :
    (imports.map (·.name)).Nodup := by
  induction items generalizing before with
  | nil =>
    cases h
    exact hbefore
  | cons value rest ih =>
    rw [readImportList] at h
    cases hread : readImport value with
    | error fault =>
      rw [hread] at h
      cases h
    | ok declaration =>
      rw [hread] at h
      change (if _ then _ else _) = _ at h
      split at h
      · cases h
      · next hnew =>
        refine ih h ?_
        rw [List.map_append, List.map_singleton, List.nodup_append]
        refine ⟨hbefore, by simp, ?_⟩
        rintro name hname other hother rfl
        rw [List.mem_singleton] at hother
        obtain ⟨first, hfirst, hsame⟩ := List.mem_map.1 hname
        exact hnew (List.any_eq_true.2 ⟨first, hfirst, by simpa using hsame.trans hother⟩)

theorem readImports_names {value : Option Value} {imports : List ImportDeclaration}
    (h : readImports value = .ok imports) : (imports.map (·.name)).Nodup := by
  simp only [readImports] at h
  split at h
  · cases h
    exact List.nodup_nil
  · cases h
    exact List.nodup_nil
  · exact readImportList_names h List.nodup_nil
  · cases h

/-- What the checks of a section have found, in their order. -/
theorem ofEntries_eq_ok {path : String} {entries : Entries} {found : Section}
    (h : ofEntries path entries = .ok found) :
    readImports (entries.lookup importsKey) = .ok found.imports ∧
      readParams (entries.lookup paramsKey) = .ok found.params ∧ found.resource.length = 1 := by
  simp only [ofEntries] at h
  cases hi : readImports (entries.lookup importsKey) with
  | error fault =>
    rw [hi] at h
    cases h
  | ok imports =>
    rw [hi] at h
    cases hp : readParams (entries.lookup paramsKey) with
    | error fault =>
      rw [hp] at h
      cases h
    | ok params =>
      rw [hp] at h
      change (if _ then _ else _) = _ at h
      split at h
      · next hlength =>
        cases h
        exact ⟨rfl, rfl, hlength⟩
      · cases h

theorem resource_length {path : String} {entries : Entries} {found : Section}
    (h : ofEntries path entries = .ok found) : found.resource.length = 1 :=
  (ofEntries_eq_ok h).2.2

theorem names_nodup {path : String} {entries : Entries} {found : Section}
    (h : ofEntries path entries = .ok found) : (found.imports.map (·.name)).Nodup :=
  readImports_names (ofEntries_eq_ok h).1

end Section

namespace Module

variable {C ρ τ : Type}

inductive Fresh : Module τ → Prop
  | intro {module : Module τ} (pending : module.evaluated = false)
    (untyped : module.resource.typed = none) (single : module.resource.raw.length = 1)
    (idle : ∀ site ∈ module.imports, site.state = .unevaluated)
    (imports : ∀ site ∈ module.imports, Fresh site.module) : Fresh module

/-- A module tree as it is made from well-formed sections. -/
inductive Formed : Module τ → Prop
  | intro {module : Module τ} {entries : Entries} {found : Section}
    (shape : Section.ofEntries module.path entries = .ok found)
    (params : module.params = found.params) (resource : module.resource = ⟨found.resource, none⟩)
    (pending : module.evaluated = false)
    (declared : module.imports.map (fun site => (site.name, site.params)) =
      found.imports.map fun declaration => (declaration.name, declaration.params))
    (idle : ∀ site ∈ module.imports, site.state = .unevaluated)
    (imports : ∀ site ∈ module.imports, Formed site.module) : Formed module

/-- The modules that loading can make. The reader and the resolver of paths may have a state of
their own, and anything may have been loaded through the cache before. -/
inductive Loaded : Module τ → Prop
  | section {ρ : Type} (source : Source (StateM ρ)) (limit : Nat) (path : String)
    (cache : Option Cache) (s : ρ) {modules : List (Module τ)} {module : Module τ}
    (loaded : (exec (load source.cached limit path) cache s).result = .ok modules)
    (mem : module ∈ modules) : Loaded module
  | import {ρ : Type} (source : Source (StateM ρ)) (limit : Nat) (path : String)
    (cache : Option Cache) (s : ρ) {module : Module τ}
    (loaded : (exec (loadImport source.cached limit path) cache s).result = .ok module) :
    Loaded module

section

variable {m : Type → Type} [Monad m] {source : Source m} {limit room : Nat} {chain : List String}
  {path : String}

theorem loadTarget_again {cycle : String} (h : cycleTo? chain path = some cycle) :
    (loadTarget source limit room chain path : ExceptT Failure m (Imported τ)) =
      throw (.cyclicImport cycle) :=
  loadTarget.eq_1 source limit chain path room cycle h

theorem loadTarget_noRoom (h : cycleTo? chain path = none) :
    (loadTarget source limit 0 chain path : ExceptT Failure m (Imported τ)) =
      throw (.importDepthExceeded path limit) :=
  loadTarget.eq_2 source limit chain path h

theorem loadTarget_room (h : cycleTo? chain path = none) :
    (loadTarget source limit (room + 1) chain path : ExceptT Failure m (Imported τ)) = (do
      match ← source.readSections path with
      | [] => throw (.emptyDocument path)
      | first :: rest =>
        let module ← loadSection source path (loadTarget source limit room (chain ++ [path])) first
        return (module, extraSections? path (rest.length + 1))) :=
  loadTarget.eq_3 source limit chain path room h

end

section

/-- A property of modules that loading establishes section by section, beside one of paths that all
resolved import paths have. -/
structure Established (source : Source (StateT C (StateM ρ))) (OfPath : String → Prop)
    (OfModule : Module τ → Prop) : Prop where
  resolved : ∀ importer written, Yields (source.resolvePath importer written) OfPath
  built : ∀ {path entries found imports} (diagnostics : List String), OfPath path →
    Section.ofEntries path entries = .ok found →
    imports.map (fun site => (site.name, site.params)) =
      found.imports.map (fun declaration => (declaration.name, declaration.params)) →
    (∀ site ∈ imports, site.state = .unevaluated ∧ OfPath site.path ∧ OfModule site.module) →
    OfModule ⟨path, imports, found.params, false, ⟨found.resource, none⟩, diagnostics⟩
  remarked : ∀ module diagnostics, OfModule module → OfModule { module with diagnostics }

namespace Established

variable {source : Source (StateT C (StateM ρ))} {OfPath : String → Prop}
  {OfModule : Module τ → Prop} (h : Established source OfPath OfModule) {path : String}
include h

section

variable {loadTarget : String → Effect C ρ (Imported τ)}
  (htarget : ∀ target, OfPath target → Yields (loadTarget target) fun t => OfModule t.1)
include htarget

theorem loadImports (declarations : List ImportDeclaration) :
    Yields (loadImports source path loadTarget declarations) fun found =>
      found.1.map (fun site => (site.name, site.params)) =
          declarations.map (fun declaration => (declaration.name, declaration.params)) ∧
        ∀ site ∈ found.1,
          site.state = .unevaluated ∧ OfPath site.path ∧ OfModule site.module := by
  induction declarations with
  | nil => exact Yields.pure (by simp)
  | cons declaration rest ih =>
    rw [Module.loadImports]
    refine (h.resolved path declaration.path).bind fun target hpath =>
      (htarget target hpath).bind fun t ht => ih.bind fun found hfound => Yields.pure ⟨?_, ?_⟩
    · rw [List.map_cons, List.map_cons, hfound.1]
    · intro site hsite
      rcases List.mem_cons.1 hsite with rfl | hmem
      · exact ⟨rfl, hpath, ht⟩
      · exact hfound.2 site hmem

theorem loadSection (hpath : OfPath path) (entries : Entries) :
    Yields (loadSection source path loadTarget entries : Effect C ρ (Module τ)) OfModule := by
  rw [Module.loadSection]
  refine (Yields.ofExcept fun found hfound => hfound).bind fun found hfound =>
    (h.loadImports htarget found.imports).bind fun imports himports => Yields.pure ?_
  exact h.built imports.2 hpath hfound himports.1 himports.2

end

theorem loadTarget (limit room : Nat) (chain : List String) (hpath : OfPath path) :
    Yields (loadTarget source limit room chain path : Effect C ρ (Imported τ))
      fun t => OfModule t.1 := by
  induction room generalizing chain path with
  | zero =>
    cases hc : cycleTo? chain path with
    | some cycle =>
      rw [loadTarget_again hc]
      exact Yields.throw _
    | none =>
      rw [loadTarget_noRoom hc]
      exact Yields.throw _
  | succ room ih =>
    cases hc : cycleTo? chain path with
    | some cycle =>
      rw [loadTarget_again hc]
      exact Yields.throw _
    | none =>
      rw [loadTarget_room hc]
      refine (Yields.trivial _).bind fun sections _ => ?_
      cases sections with
      | nil => exact Yields.throw _
      | cons first rest =>
        have hbelow (target : String) (htarget : OfPath target) := ih (chain ++ [path]) htarget
        exact (h.loadSection hbelow hpath first).bind fun module hmodule => Yields.pure hmodule

theorem load (limit : Nat) (hpath : OfPath (normalizePath path)) :
    Yields (load source limit path : Effect C ρ (List (Module τ)))
      fun modules => ∀ module ∈ modules, OfModule module := by
  rw [Module.load]
  refine (Yields.trivial _).bind fun sections _ => ?_
  cases sections with
  | nil => exact Yields.throw _
  | cons first rest =>
    have hbelow (target : String) (htarget : OfPath target) :=
      h.loadTarget limit limit [normalizePath path] htarget
    exact Yields.mapM (h.loadSection hbelow hpath) (first :: rest)

theorem loadImport (limit : Nat) (hpath : OfPath (normalizePath path)) :
    Yields (loadImport source limit path : Effect C ρ (Module τ)) OfModule := by
  rw [Module.loadImport]
  exact (h.loadTarget limit (limit + 1) [] hpath).bind fun t ht =>
    Yields.pure (h.remarked t.1 _ ht)

end Established

end

/-- Well-formedness is established, whatever the paths are. -/
theorem formed_established (source : Source (StateT C (StateM ρ))) :
    Established source (fun _ => True) (Formed : Module τ → Prop) where
  resolved importer written := Yields.trivial _
  built diagnostics _ shape declared sites :=
    .intro shape rfl rfl rfl declared (fun site hsite => (sites site hsite).1)
      fun site hsite => (sites site hsite).2.2
  remarked module diagnostics h := by
    cases h with
    | intro shape params resource pending declared idle imports =>
      exact .intro shape params resource pending declared idle imports

theorem Loaded.formed {module : Module τ} (h : Loaded module) : Formed module := by
  cases h with
  | «section» source limit path cache s loaded mem =>
    exact (formed_established _).load limit trivial cache s _ loaded module mem
  | «import» source limit path cache s loaded =>
    exact (formed_established _).loadImport limit trivial cache s _ loaded

theorem Formed.fresh {module : Module τ} (h : Formed module) : Fresh module := by
  induction h with
  | intro shape _ resource pending _ idle _ ih =>
    refine .intro pending (by rw [resource]) ?_ idle ih
    rw [resource]
    exact Section.resource_length shape

theorem Fresh.pending {module : Module τ} (h : Fresh module) : module.evaluated = false := by
  cases h with
  | intro pending _ _ _ _ => exact pending

/-- No two imports of a module have the same name. -/
theorem Formed.names_nodup {module : Module τ} (h : Formed module) :
    (module.imports.map (·.name)).Nodup := by
  cases h with
  | @intro _ _ found shape _ _ _ declared _ _ =>
    have hnames := congrArg (List.map Prod.fst) declared
    rw [List.map_map, List.map_map] at hnames
    change module.imports.map (·.name) = found.imports.map (·.name) at hnames
    rw [hnames]
    exact Section.names_nodup shape

theorem Loaded.fresh {module : Module τ} (h : Loaded module) : Fresh module :=
  h.formed.fresh

def podFiles : Source (StateM Unit) where
  read path := return .ok (
    if path = "pod.yaml" then
      [[("imports", .list [.map
          [("a", .string "a.yaml"), ("params", .map [("v", .string "${x}")])]]),
        ("pod", .list [.string "${a}", .string "${y}"])]]
    else [[("params", .list [.string "v"]), ("svc", .string "${v}")]])
  resolve _ written := return .ok written

def podModule : Module Unit where
  path := "pod.yaml"
  imports := [⟨"a", "a.yaml", [("v", .string "${x}")], .unevaluated,
    ⟨"a.yaml", [], [("v", ⟨none, none⟩)], false, ⟨[("svc", .string "${v}")], none⟩, []⟩⟩]
  params := []
  evaluated := false
  resource := ⟨[("pod", .list [.string "${a}", .string "${y}"])], none⟩
  diagnostics := []

theorem podModule_loaded : Loaded podModule := by
  have hload : (exec (load podFiles.cached 1 "pod.yaml") none ()).result = .ok [podModule] := rfl
  exact .section podFiles 1 "pod.yaml" none () hload (List.mem_singleton_self podModule)

end Module

end ManifestModules
