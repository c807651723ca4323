import ManifestModules.Proofs.Module.Evaluation
import ManifestModules.Proofs.Module.Outline

/-!
# The order of imports

The imports of a module are listed in some order. They are found, marked and put on a chain by their
positions, but they have names of their own: if they are listed in another order, here and in any of
the modules below, then evaluation does the same with each of them.
-/

namespace ManifestModules.Module

variable {σ τ : Type} {ρ : Rearrangement}

/-- The imports in a module, and in all modules below it, are listed in another order, and perhaps
also the remarks on them. Nothing else is different. -/
inductive Reordered : Rearrangement → Module τ → Module τ → Prop
  | intro {ρ : Rearrangement} {module module' : Module τ} (path : module'.path = module.path)
    (params : module'.params = module.params) (evaluated : module'.evaluated = module.evaluated)
    (resource : module'.resource = module.resource)
    (diagnostics : module'.diagnostics.Perm module.diagnostics)
    (sites : ∀ i, module'.imports[ρ [] i]?.map shown = module.imports[i]?.map shown)
    (modules : ∀ i site site', module.imports[i]? = some site →
      module'.imports[ρ [] i]? = some site' → Reordered (ρ.below i) site.module site'.module) :
    Reordered ρ module module'

def Distinct (module : Module τ) : Prop :=
  ∀ inner, module.Contains inner → (inner.imports.map (·.name)).Nodup

theorem Formed.distinct {module : Module τ} (h : Formed module) : Distinct module :=
  fun _ hinner => (h.of_contains hinner).names_nodup

theorem Distinct.imported {module : Module τ} {site : Import (Module τ)} (h : Distinct module)
    (hsite : site ∈ module.imports) : Distinct site.module :=
  fun inner hinner => h inner (.imported hsite hinner)

theorem Distinct.of_imports {module : Module τ} (h : (module.imports.map (·.name)).Nodup)
    (himports : ∀ site ∈ module.imports, Distinct site.module) : Distinct module := by
  intro inner hinner
  cases hinner with
  | root => exact h
  | imported hsite hinner => exact himports _ hsite inner hinner

namespace Reordered

/-- Imports that are listed in another order, and so are all imports below. The names tell them
apart. -/
abbrev Imports : Rearrangement → List (Import (Module τ)) → List (Import (Module τ)) → Prop :=
  Aligned (fun ρ module module' => Reordered ρ module module' ∧ Distinct module)
    fun _ names => names.Nodup

variable {module module' : Module τ} (h : Reordered ρ module module')
include h

theorem resembles : Resembles module module' := by
  cases h with
  | intro path params evaluated resource _ _ _ =>
    exact ⟨path, params, evaluated, congrArg Resource.raw resource⟩

theorem imports (hdistinct : Distinct module) : Imports ρ module.imports module'.imports := by
  cases h with
  | intro _ _ _ _ _ sites modules =>
    refine ⟨hdistinct module .root, sites, fun i site site' hi hi' => ?_⟩
    exact ⟨modules i site site' hi hi', hdistinct.imported (List.mem_of_getElem? hi)⟩

theorem with_imports {imports imports' : List (Import (Module τ))}
    (himports : Imports ρ imports imports') :
    Reordered ρ { module with imports } { module' with imports := imports' } := by
  cases h with
  | intro path params evaluated resource diagnostics _ _ =>
    refine .intro path params evaluated resource diagnostics himports.sites ?_
    exact fun i site site' hi hi' => (himports.modules i site site' hi hi').1

theorem converted (raw : Entries) (typed : Conversion τ) :
    Reordered ρ { module with resource := ⟨raw, some typed⟩, evaluated := true }
      { module' with resource := ⟨raw, some typed⟩, evaluated := true } := by
  cases h with
  | intro path params _ _ diagnostics sites modules =>
    exact .intro path params rfl rfl diagnostics sites modules

end Reordered

theorem Reordered.Imports.distinct {module : Module τ} {imports imports' : List (Import (Module τ))}
    (h : Imports ρ imports imports') : Distinct { module with imports } := by
  apply Distinct.of_imports h.listed
  intro site hsite
  obtain ⟨i, hi⟩ := List.mem_iff_getElem?.1 hsite
  obtain ⟨site', hi', -⟩ := h.exists_site hi
  exact (h.modules i site site' hi hi').2

def Likeness.reordered (τ : Type) : Likeness τ τ where
  Alike ρ module module' := Reordered ρ module module' ∧ Distinct module
  Listed _ names := names.Nodup
  Typed := Eq
  separate := .inr
  resembles h := h.1.resembles
  aligned h := h.1.imports h.2
  with_imports h himports := ⟨h.1.with_imports himports, Reordered.Imports.distinct himports⟩
  converted := by
    rintro ρ module module' raw typed _ ⟨hreordered, hdistinct⟩ rfl
    exact ⟨hreordered.converted raw typed, .of_imports (hdistinct module .root)
      fun _ => hdistinct.imported⟩

def sameWorld (σ : Type) : Relator (StateM σ) (StateM σ) where
  Rel R x y := ∀ s, ∃ a b s', R a b ∧ x.run s = (a, s') ∧ y.run s = (b, s')
  pure h := fun s => ⟨_, _, s, h, rfl, rfl⟩
  bind hx hf := by
    intro s
    obtain ⟨a, b, s', h, hrun, hrun'⟩ := hx s
    rw [StateT.run_bind, StateT.run_bind, hrun, hrun']
    exact hf a b h s'

theorem Reordered.runCalls (convert : Converter (StateM σ) τ) {module module' : Module τ}
    (h : Reordered ρ module module') (hdistinct : Distinct module) (calls : List Call) (s : σ) :
    let left := (runCalls convert calls module).run s
    let left' := (Module.runCalls convert (calls.map (Call.moved ρ)) module').run s
    left.1.1 = left'.1.1 ∧ left.2 = left'.2 ∧ Reordered ρ left.1.2 left'.1.2 := by
  have hconvert : (Likeness.reordered τ).Converts (sameWorld σ) convert convert :=
    fun _ _ _ => ⟨_, _, _, rfl, rfl, rfl⟩
  have halike : (Likeness.reordered τ).Alike ρ module module' := ⟨h, hdistinct⟩
  obtain ⟨left, left', s', hleft, hrun, hrun'⟩ := Likeness.runCalls hconvert calls halike s
  rw [hrun, hrun']
  exact ⟨hleft.outcome.symm, rfl, hleft.alike.1⟩

/-- Evaluation does not depend on the order of imports. Whatever is called on a loaded tree, the
same calls on the tree with its imports in another order have the same results and do the same
conversions. They leave the same resource in each module and the same progress of each import. -/
theorem runCalls_reordered (convert : Converter (StateM σ) τ) {module module' : Module τ}
    (loaded : Loaded module) (reordered : Reordered ρ module module') (calls : List Call) (s : σ) :
    let left := (Module.runCalls convert calls module).run s
    let left' := (Module.runCalls convert (calls.map (Call.moved ρ)) module').run s
    left.1.1 = left'.1.1 ∧ left.2 = left'.2 ∧ Reordered ρ left.1.2 left'.1.2 :=
  reordered.runCalls convert loaded.formed.distinct calls s

namespace Rearrangement

def atRoot (move : Equiv.Perm Nat) : Rearrangement
  | [] => move
  | _ :: _ => Equiv.refl Nat

end Rearrangement

theorem Reordered.refl (module : Module τ) : Reordered (fun _ => Equiv.refl Nat) module module := by
  induction module using Module.induction with
  | step module ih =>
    refine .intro rfl rfl rfl rfl (List.Perm.refl _) (fun _ => rfl) ?_
    intro i site site' hi hi'
    cases hi.symm.trans hi'
    exact ih site (List.mem_of_getElem? hi)

theorem Reordered.atRoot (module : Module τ) {imports' : List (Import (Module τ))}
    {move : Equiv.Perm Nat} (h : ∀ i, imports'[move i]? = module.imports[i]?) :
    Reordered (.atRoot move) module { module with imports := imports' } := by
  refine .intro rfl rfl rfl rfl (List.Perm.refl _) (fun i => congrArg _ (h i)) ?_
  intro i site site' hi hi'
  cases hi.symm.trans ((h i).symm.trans hi')
  exact .refl site.module

/-- A pod with two imports, each with the other one as a parameter. -/
def crossedFiles : Source (StateM Unit) where
  read path :=
    let crossing (name other : String) : Value :=
      .map [(name, .string (name ++ ".yaml")), ("params", .map [("v", .string other)])]
    return .ok (
      if path = "main.yaml" then
        [[("imports", .list [crossing "web" "${data}", crossing "data" "${web}"]),
          ("pod", .string "${data}")]]
      else [[("params", .list [.string "v"]), ("svc", .string "${v}")]])
  resolve _ written := return .ok written

def crossedModule : Module Unit where
  path := "main.yaml"
  imports :=
    let crossing (name other : String) : Import (Module Unit) :=
      ⟨name, name ++ ".yaml", [("v", .string other)], .unevaluated,
        ⟨name ++ ".yaml", [], [("v", ⟨none, none⟩)], false, ⟨[("svc", .string "${v}")], none⟩, []⟩⟩
    [crossing "web" "${data}", crossing "data" "${web}"]
  params := []
  evaluated := false
  resource := ⟨[("pod", .string "${data}")], none⟩
  diagnostics := []

theorem crossedModule_loaded : Loaded crossedModule := by
  have hload : (exec (load crossedFiles.cached 1 "main.yaml") none ()).result =
      .ok [crossedModule] := rfl
  exact .section crossedFiles 1 "main.yaml" none () hload (List.mem_singleton_self crossedModule)

theorem runCalls_crossed_reordered :
    let swapped : Module Unit := { crossedModule with imports := crossedModule.imports.reverse }
    let ρ : Rearrangement := .atRoot (Equiv.swap 0 1)
    let calls := [.atRoot [] none, .atRoot [] (some "web"), .atRoot [] (some "date"),
      ⟨[1], [("v", .null)], none⟩, .atRoot [] (some "web")]
    Loaded crossedModule ∧ Reordered ρ crossedModule swapped ∧
    (let left := (runCalls asUnit calls crossedModule).run ()
    let left' := (runCalls asUnit (calls.map (Call.moved ρ)) swapped).run ()
    left.1.1 = [.error (.cyclicImport "main.yaml: data → web → data"),
      .error (.cyclicImport "main.yaml: web → data → web"),
      .error (.unknownIdentifier "date" "main.yaml" ["data"]), .ok (),
      .error (.cyclicImport "main.yaml: web → data → web")] ∧
    left.1.1 = left'.1.1 ∧ left.2 = left'.2 ∧ Reordered ρ left.1.2 left'.1.2) := by
  intro swapped ρ calls
  have hreordered : Reordered ρ crossedModule swapped := by
    apply Reordered.atRoot
    intro i
    match i with
    | 0 => rfl
    | 1 => rfl
    | i + 2 =>
      rw [Equiv.swap_apply_of_ne_of_ne (by simp) (by simp)]
      rfl
  exact ⟨crossedModule_loaded, hreordered, rfl,
    runCalls_reordered asUnit crossedModule_loaded hreordered calls ()⟩

end ManifestModules.Module
