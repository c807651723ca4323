import ManifestModules.Module.Evaluate
import Mathlib.Data.List.Basic

/-!
# Module trees

Induction over a module and everything it imports, and the evaluators of imports as a map over
them.
-/

namespace ManifestModules.Module

variable {τ : Type}

mutual

/-- What follows for a module from the modules it imports holds for every module. -/
theorem induction {motive : Module τ → Prop}
    (step : ∀ module, (∀ site ∈ module.imports, motive site.module) → motive module) :
    (module : Module τ) → motive module
  | ⟨_, imports, _, _, _, _⟩ => step _ (induction_imports step imports)

theorem induction_imports {motive : Module τ → Prop}
    (step : ∀ module, (∀ site ∈ module.imports, motive site.module) → motive module) :
    (imports : List (Import (Module τ))) → ∀ site ∈ imports, motive site.module
  | [] => by simp
  | ⟨_, _, _, _, module⟩ :: rest => by
    intro site hsite
    rcases List.mem_cons.1 hsite with rfl | hrest
    · exact induction step module
    · exact induction_imports step rest site hrest

end

inductive Contains : Module τ → Module τ → Prop
  | root {module : Module τ} : Contains module module
  | imported {module inner : Module τ} {site : Import (Module τ)} (mem : site ∈ module.imports)
    (contains : Contains site.module inner) : Contains module inner

theorem importEvaluators_eq_map {m : Type → Type} [Monad m] (convert : Converter m τ)
    (imports : List (Import (Module τ))) :
    importEvaluators convert imports = imports.map fun site => evaluate convert site.module := by
  induction imports with
  | nil => rfl
  | cons site rest ih =>
    rcases site with ⟨name, path, params, state, module⟩
    rw [importEvaluators, ih, List.map_cons]

end ManifestModules.Module
