import ManifestModules.Proofs.Module.CallByName
import ManifestModules.Proofs.Module.Marks
import ManifestModules.Proofs.Module.Tree
import ManifestModules.Proofs.Template.Correspondence

/-!
# Progress of evaluations with fixed parameters

Evaluations of a module with the same parameters, successful or not, leave a tree in which every
evaluated import has the resource it has by name. The point that carries the proof is that the
evaluated imports are closed under demands: a chain that meets one of them from outside never
closes a cycle inside, so the value by name is the same for all such chains.
-/

namespace ManifestModules.Module

open Template

variable {σ τ : Type}

def Unevaluated (imports : List (Import (Module τ))) (chain : List Nat) : Prop :=
  ∀ i ∈ chain, ∀ site : Import (Module τ), imports[i]? = some site → site.state ≠ .evaluated

section

variable (kept : Import (Module τ) → Bool) (base : Module τ) (given : Entries)

/-- What the imports of `base` have become while those on the chain are being evaluated. -/
structure Tracks (chain : List Nat) (imports : List (Import (Module τ))) : Prop
    extends Marked base chain imports where
  exempt : ∀ i old site, Became base.imports imports i old site → kept old = true →
    site.state = .evaluated
  evaluated : ∀ (i : Nat) (site : Import (Module τ)), imports[i]? = some site →
    site.state = .evaluated → ∀ other, Unevaluated imports other →
      bodyByName kept base given other i = .ok site.module.resource.body?
  idle : ∀ (i : Nat) (site : Import (Module τ)), imports[i]? = some site →
    site.state ≠ .evaluated → site.module.evaluated = false

end

/-- The module `current` is what evaluations of `base` with the parameters `given` lead to. If the
parameters of an import cannot be filled, its module is untouched. -/
inductive Progress (kept : Import (Module τ) → Bool) :
    (base : Module τ) → (given : Entries) → (current : Module τ) → Prop
  | intro {base : Module τ} {given : Entries} {current : Module τ}
    (path : current.path = base.path) (params : current.params = base.params)
    (pending : current.evaluated = false → current.resource.raw = base.resource.raw)
    (done : current.evaluated = true → callByName kept base given = .ok current.resource.raw)
    (tracks : Tracks kept base given [] current.imports)
    (modules : ∀ i old site, Became base.imports current.imports i old site → kept old = false →
      ∀ filled, paramsByName kept base given [] i old = .ok filled →
        Progress kept old.module filled site.module)
    (untouched : ∀ i old site, Became base.imports current.imports i old site → kept old = false →
      ∀ e, paramsByName kept base given [] i old = .error e → site.module = old.module) :
    Progress kept base given current

structure Underway (kept : Import (Module τ) → Bool) (base : Module τ) (given : Entries)
    (chain : List Nat) (imports : List (Import (Module τ))) : Prop where
  tracks : Tracks kept base given chain imports
  modules : ∀ i old site, Became base.imports imports i old site → kept old = false →
    ∀ filled, paramsByName kept base given [] i old = .ok filled →
      Progress kept old.module filled site.module
  untouched : ∀ i old site, Became base.imports imports i old site → kept old = false →
    ∀ e, paramsByName kept base given [] i old = .error e → site.module = old.module

variable {kept : Import (Module τ) → Bool} {base : Module τ} {given : Entries}
  {chain : List Nat} {imports imports' : List (Import (Module τ))}

theorem Progress.underway {current : Module τ} (h : Progress kept base given current) :
    Underway kept base given [] current.imports := by
  cases h with
  | intro _ _ _ _ tracks modules untouched => exact ⟨tracks, modules, untouched⟩

theorem Tracks.unevaluated (h : Tracks kept base given chain imports) :
    Unevaluated imports chain := by
  intro i hi site hsite he
  have := (h.evaluating i site hsite).2 hi
  rw [he] at this
  cases this

section

variable {index : Nat} {old site site' : Import (Module τ)}

theorem Unevaluated.before {other : List Nat} (h : Unevaluated imports' other)
    (hchanged : Changed imports imports' index site') (hsite : imports[index]? = some site)
    (hstate : site.state ≠ .evaluated) : Unevaluated imports other := by
  intro i hi at_i hat
  by_cases hindex : i = index
  · subst i
    rw [hsite] at hat
    cases hat
    exact hstate
  · exact h i hi at_i ((hchanged.other i hindex).trans hat)

/-- One import that is not evaluated yet changes, and with it the marks. -/
theorem Underway.changed {chain' : List Nat} (h : Underway kept base given chain imports)
    (hchanged : Changed imports imports' index site') (hmarked : Marked base chain' imports')
    (hb : Became base.imports imports index old site) (hstate : site.state ≠ .evaluated)
    (hevaluated : site'.state = .evaluated → ∀ other, Unevaluated imports' other →
      bodyByName kept base given other index = .ok site'.module.resource.body?)
    (hidle : site'.state ≠ .evaluated → site'.module.evaluated = false)
    (hmodule : ∀ filled, paramsByName kept base given [] index old = .ok filled →
      Progress kept old.module filled site'.module)
    (huntouched : ∀ e, paramsByName kept base given [] index old = .error e →
      site'.module = old.module) :
    Underway kept base given chain' imports' := by
  have hwas {was : Import (Module τ)} (hi : base.imports[index]? = some was) : was = old :=
    Option.some.inj (hi.symm.trans hb.old)
  refine ⟨⟨hmarked, ?_, ?_, ?_⟩, ?_, ?_⟩
  · intro i was now hnow hk
    obtain ⟨rfl, rfl⟩ | ⟨_, hi⟩ := hchanged.getElem?_cases hnow.new
    · rw [hwas hnow.old] at hk
      exact absurd (h.tracks.exempt i old site hb hk) hstate
    · exact h.tracks.exempt i was now ⟨hnow.old, hi⟩ hk
  · intro i now hnow hs other hother
    obtain ⟨rfl, rfl⟩ | ⟨_, hi⟩ := hchanged.getElem?_cases hnow
    · exact hevaluated hs other hother
    · exact h.tracks.evaluated i now hi hs other (hother.before hchanged hb.new hstate)
  · intro i now hnow hs
    obtain ⟨rfl, rfl⟩ | ⟨_, hi⟩ := hchanged.getElem?_cases hnow
    · exact hidle hs
    · exact h.tracks.idle i now hi hs
  · intro i was now hnow hk filled hfilled
    obtain ⟨rfl, rfl⟩ | ⟨_, hi⟩ := hchanged.getElem?_cases hnow.new
    · rw [hwas hnow.old] at hfilled ⊢
      exact hmodule filled hfilled
    · exact h.modules i was now ⟨hnow.old, hi⟩ hk filled hfilled
  · intro i was now hnow hk e he
    obtain ⟨rfl, rfl⟩ | ⟨_, hi⟩ := hchanged.getElem?_cases hnow.new
    · rw [hwas hnow.old] at he ⊢
      exact huntouched e he
    · exact h.untouched i was now ⟨hnow.old, hi⟩ hk e he

theorem Underway.enter (h : Underway kept base given chain imports)
    (hb : Became base.imports imports index old site) (hs : site.state = .unevaluated)
    (hk : kept old = false) :
    Underway kept base given (chain ++ [index]) (mark imports index .evaluating) := by
  have hopen : site.state ≠ .evaluated := by rw [hs]; simp
  refine h.changed (.mark _ hb.new) (h.tracks.enter hb.new) hb hopen ?_ ?_ ?_ ?_
  · intro hs'
    cases hs'
  · intro _
    exact h.tracks.idle index site hb.new hopen
  · exact h.modules index old site hb hk
  · exact h.untouched index old site hb hk

theorem Underway.isEvaluating (h : Underway kept base given (chain ++ [index]) imports)
    (hnew : imports[index]? = some site) : site.state ≠ .evaluated := by
  rw [h.tracks.evaluating_last hnew]
  simp

/-- An import that failed is unevaluated again. -/
theorem Underway.leave (h : Underway kept base given (chain ++ [index]) imports)
    (hb : Became base.imports imports index old site) (hc : index ∉ chain)
    (hk : kept old = false) :
    Underway kept base given chain (mark imports index .unevaluated) := by
  have hopen := h.isEvaluating hb.new
  refine h.changed (.mark _ hb.new) (h.tracks.leave hb.new hc (by simp)) hb hopen ?_ ?_ ?_ ?_
  · intro hs'
    cases hs'
  · intro _
    exact h.tracks.idle index site hb.new hopen
  · exact h.modules index old site hb hk
  · exact h.untouched index old site hb hk

/-- The templates of an import are filled in the same way from every chain without evaluated
imports. -/
def FilledEverywhere (kept : Import (Module τ) → Bool) (base : Module τ) (given : Entries)
    (imports : List (Import (Module τ))) (templates filled : Entries) : Prop :=
  ∀ other, Unevaluated imports other →
    Module.filled (answer (base.scopeWith given) base.imports (bodyByName kept base given other))
      templates = .ok filled

theorem Underway.paramsByName_eq {filled : Entries} {other : List Nat}
    (h : Underway kept base given (chain ++ [index]) imports)
    (hf : FilledEverywhere kept base given imports old.params filled)
    (hother : Unevaluated imports other) :
    paramsByName kept base given other index old = .ok filled := by
  apply hf
  intro i hi at_i hat
  rcases List.mem_append.1 hi with hi | hi
  · exact hother i hi at_i hat
  · rw [List.mem_singleton] at hi
    subst i
    exact h.isEvaluating hat

/-- An import whose evaluation failed keeps what its module has reached. -/
theorem Underway.fail {filled : Entries} {module : Module τ}
    (h : Underway kept base given (chain ++ [index]) imports)
    (hb : Became base.imports imports index old site)
    (hf : FilledEverywhere kept base given imports old.params filled)
    (hm : Progress kept old.module filled module) (he : module.evaluated = false) :
    Underway kept base given (chain ++ [index]) (store imports index module) := by
  have hopen := h.isEvaluating hb.new
  have hparams : paramsByName kept base given [] index old = .ok filled :=
    h.paramsByName_eq hf (by intro i hi; cases hi)
  refine h.changed (.store _ hb.new) (h.tracks.store hb.new) hb hopen ?_ ?_ ?_ ?_
  · intro hs'
    exact absurd hs' hopen
  · intro _
    exact he
  · intro other hother
    rw [hparams] at hother
    cases hother
    exact hm
  · intro e hother
    rw [hparams] at hother
    cases hother

/-- An import whose evaluation succeeded is evaluated from now on. No chain that avoids the
evaluated imports can meet it while it is evaluated by name, hence its body does not depend on the
chain. -/
theorem Underway.finish {filled : Entries} {module : Module τ}
    (h : Underway kept base given (chain ++ [index]) imports)
    (hb : Became base.imports imports index old site) (hc : index ∉ chain)
    (hk : kept old = false) (hf : FilledEverywhere kept base given imports old.params filled)
    (hm : Progress kept old.module filled module)
    (hcall : callByName kept old.module filled = .ok module.resource.raw) :
    Underway kept base given chain (mark (store imports index module) index .evaluated) := by
  have hopen := h.isEvaluating hb.new
  have hparams : paramsByName kept base given [] index old = .ok filled :=
    h.paramsByName_eq hf (by intro i hi; cases hi)
  have hstored : Changed imports (store imports index module) index { site with module } :=
    .store module hb.new
  have hchanged := hstored.trans (.mark .evaluated hstored.new)
  have hmarked : Marked base chain (mark (store imports index module) index .evaluated) :=
    (h.tracks.store hb.new).leave hstored.new hc (by simp)
  refine h.changed hchanged hmarked hb hopen ?_ ?_ ?_ ?_
  · intro _ other hun
    have hnot : index ∉ other := fun hi => hun index hi _ hchanged.new rfl
    rw [bodyByName_fresh hb.old hk hnot,
      h.paramsByName_eq hf (hun.before hchanged hb.new hopen)]
    change (do let raw ← callByName kept old.module filled; _) = _
    rw [hcall]
    rfl
  · intro hs'
    exact absurd rfl hs'
  · intro given' hother
    rw [hparams] at hother
    cases hother
    exact hm
  · intro e hother
    rw [hparams] at hother
    cases hother

end

end ManifestModules.Module
