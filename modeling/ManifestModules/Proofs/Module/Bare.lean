import ManifestModules.Proofs.Module.Run

/-!
# Modules without their conversions

A bare module tells nothing about the results of conversions, but which modules have been converted.
Everything else stays: the resources, the parameters, the progress of the imports and the remarks.
-/

namespace ManifestModules

variable {τ μ ν : Type}

def Import.map (f : μ → ν) (site : Import μ) : Import ν :=
  ⟨site.name, site.path, site.params, site.state, f site.module⟩

def Resource.bare (resource : Resource τ) : Resource Unit :=
  ⟨resource.raw, resource.typed.map fun _ => .typed ()⟩

namespace Module

mutual

/-- The module without the results of conversions, also in everything it imports. -/
def bare : Module τ → Module Unit
  | ⟨path, imports, params, evaluated, resource, diagnostics⟩ =>
    ⟨path, bareImports imports, params, evaluated, resource.bare, diagnostics⟩

def bareImports : List (Import (Module τ)) → List (Import (Module Unit))
  | [] => []
  | ⟨name, path, params, state, module⟩ :: rest =>
    ⟨name, path, params, state, module.bare⟩ :: bareImports rest

end

theorem bareImports_eq_map (imports : List (Import (Module τ))) :
    bareImports imports = imports.map (Import.map bare) := by
  induction imports with
  | nil => simp only [bareImports, List.map_nil]
  | cons site rest ih => simp only [bareImports, ih, List.map_cons, Import.map]

theorem bare_eq (module : Module τ) : module.bare =
    ⟨module.path, bareImports module.imports, module.params, module.evaluated,
      module.resource.bare, module.diagnostics⟩ := by
  cases module
  simp only [bare]

end Module

end ManifestModules
