import ManifestModules.Proofs.Module.Likeness
import ManifestModules.Proofs.Module.Loaded
import ManifestModules.Proofs.Relator

/-!
# Loading is uniform in its source

Loading reaches its surroundings only through the source. A relation between computations that is
respected by returning, failing and sequencing therefore carries over from the answers of two
sources to whole loads.
-/

namespace ManifestModules.Module

variable {m m' : Type → Type} [Monad m] [Monad m'] {α β τ τ' : Type}

structure LoadRelator (m m' : Type → Type) [Monad m] [Monad m'] extends
    Relator (ExceptT Failure m) (ExceptT Failure m') where
  throw : ∀ {α β : Type} {R : α → β → Prop} (e : Failure),
    Rel R (MonadExcept.throw e) (MonadExcept.throw e)

/-- Import sites that tell the same by themselves, with related modules. -/
structure SameSite (T : Module τ → Module τ' → Prop) (site : Import (Module τ))
    (site' : Import (Module τ')) : Prop where
  shown : shown site' = shown site
  module : T site.module site'.module

structure LoadsAlike (T : Module τ → Module τ' → Prop) : Prop where
  fresh : ∀ (path : String) (params : Table Parameter) (raw : Entries) (diagnostics : List String)
    {imports : List (Import (Module τ))} {imports' : List (Import (Module τ'))},
    List.Forall₂ (SameSite T) imports imports' →
      T ⟨path, imports, params, false, ⟨raw, none⟩, diagnostics⟩
        ⟨path, imports', params, false, ⟨raw, none⟩, diagnostics⟩
  remarked : ∀ {module : Module τ} {module' : Module τ'} (remarks : List String),
    T module module' → T { module with diagnostics := module.diagnostics ++ remarks }
      { module' with diagnostics := module'.diagnostics ++ remarks }

structure SameRemarks {ν : Type} (R : α → β → Prop) (loaded : α × ν) (loaded' : β × ν) : Prop where
  result : R loaded.1 loaded'.1
  remarks : loaded'.2 = loaded.2

theorem loadsAlike_ofMap (f : Module τ → Module τ') (typed : Conversion τ → Conversion τ') (map) :
    LoadsAlike ((Likeness.ofMap f typed map).Alike .still) := by
  constructor
  · intro path params raw diagnostics imports imports' himports
    have hmap : imports.map (Import.map f) = imports' := by
      induction himports with
      | nil => rfl
      | cons hsite _ ih => rw [List.map_cons, ih, map_eq_of_shown hsite.shown hsite.module.2]
    refine ⟨rfl, ?_⟩
    rw [map, hmap]
    rfl
  · rintro module _ remarks ⟨-, rfl⟩
    refine ⟨rfl, ?_⟩
    rw [map, map module]

namespace LoadRelator

variable (r : LoadRelator m m')

structure Served (source : Source m) (source' : Source m') : Prop where
  read : ∀ path, r.Rel Eq (source.readSections path) (source'.readSections path)
  resolve : ∀ importer written,
    r.Rel Eq (source.resolvePath importer written) (source'.resolvePath importer written)

variable {r}

theorem ofExcept (x : Except Failure α) :
    r.Rel Eq (liftM x : ExceptT Failure m α) (liftM x : ExceptT Failure m' α) := by
  cases x with
  | ok a => exact r.pure rfl
  | error e => exact r.throw e

namespace Served

variable {source : Source m} {source' : Source m'} (h : r.Served source source')
  {T : Module τ → Module τ' → Prop}
include h

section

variable {target : String → ExceptT Failure m (Imported τ)}
  {target' : String → ExceptT Failure m' (Imported τ')}
  (htarget : ∀ path, r.Rel (SameRemarks T) (target path) (target' path))
include htarget

theorem loadImports (path : String) (declarations : List ImportDeclaration) :
    r.Rel (SameRemarks (List.Forall₂ (SameSite T))) (loadImports source path target declarations)
      (loadImports source' path target' declarations) := by
  induction declarations with
  | nil => exact r.pure ⟨.nil, rfl⟩
  | cons declaration rest ih =>
    apply r.bind (h.resolve path declaration.path)
    rintro found _ rfl
    apply r.bind (htarget found)
    rintro ⟨module, remark⟩ ⟨module', _⟩ ⟨hmodule, rfl⟩
    apply r.bind ih
    rintro ⟨imports, remarks⟩ ⟨imports', _⟩ ⟨himports, rfl⟩
    exact r.pure ⟨.cons ⟨rfl, hmodule⟩ himports, rfl⟩

theorem loadSection (hT : LoadsAlike T) (path : String) (entries : Entries) :
    r.Rel T (loadSection source path target entries)
      (loadSection source' path target' entries) := by
  apply r.bind (ofExcept _)
  rintro found _ rfl
  apply r.bind (h.loadImports htarget path found.imports)
  rintro ⟨imports, remarks⟩ ⟨imports', _⟩ ⟨himports, rfl⟩
  exact r.pure (hT.fresh _ _ _ _ himports)

end

variable (hT : LoadsAlike T)
include hT

theorem loadTarget (limit room : Nat) (chain : List String) (path : String) :
    r.Rel (SameRemarks T) (loadTarget source limit room chain path)
      (loadTarget source' limit room chain path) := by
  induction room generalizing chain path with
  | zero =>
    cases hc : cycleTo? chain path with
    | some cycle =>
      rw [loadTarget_again hc, loadTarget_again hc]
      exact r.throw _
    | none =>
      rw [loadTarget_noRoom hc, loadTarget_noRoom hc]
      exact r.throw _
  | succ room ih =>
    cases hc : cycleTo? chain path with
    | some cycle =>
      rw [loadTarget_again hc, loadTarget_again hc]
      exact r.throw _
    | none =>
      rw [loadTarget_room hc, loadTarget_room hc]
      apply r.bind (h.read path)
      rintro sections _ rfl
      cases sections with
      | nil => exact r.throw _
      | cons first rest =>
        apply r.bind (h.loadSection (ih (chain ++ [path])) hT path first)
        intro _ _ hmodule
        exact r.pure ⟨hmodule, rfl⟩

theorem load [LawfulMonad m] [LawfulMonad m'] (limit : Nat) (path : String) :
    r.Rel (List.Forall₂ T) (load source limit path) (load source' limit path) := by
  apply r.bind (h.read (normalizePath path))
  rintro sections _ rfl
  cases sections with
  | nil => exact r.throw _
  | cons first rest =>
    have hsection := h.loadSection (h.loadTarget hT limit limit [normalizePath path]) hT
      (normalizePath path)
    apply Relator.mapM (R := Eq)
    · rintro entries _ rfl
      exact hsection entries
    · exact List.forall₂_refl _

theorem loadImport (limit : Nat) (path : String) :
    r.Rel T (loadImport source limit path) (loadImport source' limit path) := by
  apply r.bind (h.loadTarget hT limit (limit + 1) [] (normalizePath path))
  rintro ⟨module, remark⟩ ⟨module', _⟩ ⟨hmodule, rfl⟩
  exact r.pure (hT.remarked _ hmodule)

end Served

end LoadRelator

/-- Relations between computations carry over to those that may fail. -/
def loading (r : Relator m m') : LoadRelator m m' where
  toRelator := r.failing
  throw := r.throw

theorem served_loading [LawfulMonad m] [LawfulMonad m'] {r : Relator m m'} {source : Source m}
    {source' : Source m'} (hread : ∀ path, r.Rel Eq (source.read path) (source'.read path))
    (hresolve : ∀ importer written,
      r.Rel Eq (source.resolve importer written) (source'.resolve importer written)) :
    (loading r).Served source source' := by
  constructor
  · intro path
    apply (loading r).bind (Relator.lift (hread path))
    rintro result _ rfl
    cases result with
    | ok sections => exact (loading r).pure rfl
    | error trouble => exact (loading r).throw _
  · intro importer written
    apply (loading r).bind (Relator.lift (hresolve importer written))
    rintro result _ rfl
    cases result with
    | ok path => exact (loading r).pure rfl
    | error trouble => exact (loading r).throw _

/-! ## The same modules -/

/-- A relation between computations with the same results that loading respects. -/
structure LoadRelation (m m' : Type → Type) [Monad m] [Monad m'] extends
    Concord (ExceptT Failure m) (ExceptT Failure m') where
  throw : ∀ {α : Type} (e : Failure),
    Rel (MonadExcept.throw e : ExceptT Failure m α) (MonadExcept.throw e)

theorem loadsAlike_same : LoadsAlike ((Likeness.same τ).Alike .still) :=
  loadsAlike_ofMap id id _

namespace LoadRelation

variable [LawfulMonad m] [LawfulMonad m'] (r : LoadRelation m m')

def relator : LoadRelator m m' where
  toRelator := r.toConcord.relator
  throw e := ⟨MonadExcept.throw e, MonadExcept.throw e, r.throw e, by simp, by simp⟩

structure Served (source : Source m) (source' : Source m') : Prop where
  read : ∀ path, r.Rel (source.readSections path) (source'.readSections path)
  resolve : ∀ importer written,
    r.Rel (source.resolvePath importer written) (source'.resolvePath importer written)

namespace Served

variable {r} {source : Source m} {source' : Source m'} (h : r.Served source source')
include h

theorem relator : r.relator.Served source source' :=
  ⟨fun path => Concord.related (h.read path) fun _ => rfl,
    fun importer written => Concord.related (h.resolve importer written) fun _ => rfl⟩

theorem loadSection {target : String → ExceptT Failure m (Imported τ)}
    {target' : String → ExceptT Failure m' (Imported τ)} (path : String)
    (htarget : ∀ path, r.Rel (target path) (target' path)) (entries : Entries) :
    r.Rel (loadSection source path target entries) (loadSection source' path target' entries) := by
  have hrelated (path : String) : r.relator.Rel (SameRemarks ((Likeness.same τ).Alike .still))
      (target path) (target' path) :=
    Concord.related (htarget path) fun _ => ⟨⟨rfl, rfl⟩, rfl⟩
  exact Concord.of_related (h.relator.loadSection hrelated loadsAlike_same path entries)
    fun _ _ h => h.2

theorem load (limit : Nat) (path : String) :
    r.Rel (load source limit path : ExceptT Failure m (List (Module τ)))
      (load source' limit path) :=
  Concord.of_related (h.relator.load loadsAlike_same limit path) fun _ _ h =>
    Likeness.eq_of_forall₂_same h

theorem loadImport (limit : Nat) (path : String) :
    r.Rel (loadImport source limit path : ExceptT Failure m (Module τ))
      (loadImport source' limit path) :=
  Concord.of_related (h.relator.loadImport loadsAlike_same limit path) fun _ _ h => h.2

end Served

end LoadRelation

end ManifestModules.Module
