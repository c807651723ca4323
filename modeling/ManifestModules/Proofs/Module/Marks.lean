import ManifestModules.Proofs.Module.Run

/-!
# Marks of progress

Evaluations change imports one at a time, and never what an import is declared to be. The chain of
imports that are being evaluated is written into the tree as marks.
-/

namespace ManifestModules.Module

variable {τ : Type} {base : Module τ} {imports imports' imports'' : List (Import (Module τ))}
  {index : Nat} {site site' site'' old : Import (Module τ)}

def declared (site : Import (Module τ)) : String × String × Entries :=
  (site.name, site.path, site.params)

/-- What an import site tells by itself: its declaration and its progress. -/
def shown (site : Import (Module τ)) : (String × String × Entries) × ImportState :=
  (declared site, site.state)

structure Became (before after : List (Import (Module τ))) (i : Nat)
    (old new : Import (Module τ)) : Prop where
  old : before[i]? = some old
  new : after[i]? = some new

section

theorem declared_eq_of_getElem? (h : imports.map declared = base.imports.map declared)
    (hi : imports[index]? = some site) :
    ∃ site₀, base.imports[index]? = some site₀ ∧ declared site₀ = declared site := by
  have hmap := congrArg (·[index]?) h
  simp only [List.getElem?_map, hi, Option.map_some] at hmap
  cases hb : base.imports[index]? with
  | none => rw [hb] at hmap; cases hmap
  | some site₀ =>
    rw [hb] at hmap
    exact ⟨site₀, rfl, (Option.some.inj hmap).symm⟩

theorem getElem?_none_of_declared (h : imports.map declared = base.imports.map declared)
    (hi : imports[index]? = none) : base.imports[index]? = none := by
  have hmap := congrArg (·[index]?) h
  simp only [List.getElem?_map, hi, Option.map_none] at hmap
  cases hb : base.imports[index]? with
  | none => rfl
  | some site₀ => rw [hb] at hmap; cases hmap

theorem became_of_declared (h : imports.map declared = base.imports.map declared)
    (hold : base.imports[index]? = some old) :
    ∃ site, Became base.imports imports index old site := by
  cases hnew : imports[index]? with
  | none =>
    have habsent := getElem?_none_of_declared h hnew
    rw [hold] at habsent
    cases habsent
  | some site => exact ⟨site, hold, hnew⟩

theorem map_name_of_declared (h : imports.map declared = base.imports.map declared) :
    imports.map (·.name) = base.imports.map (·.name) := by
  have hmap := congrArg (List.map Prod.fst) h
  rw [List.map_map, List.map_map] at hmap
  exact hmap

theorem findIdx?_of_declared (h : imports.map declared = base.imports.map declared)
    (head : String) :
    imports.findIdx? (·.name = head) = base.imports.findIdx? (·.name = head) := by
  have hmap := congrArg (List.findIdx? (fun name => decide (name = head)))
    (map_name_of_declared h)
  rw [List.findIdx?_map, List.findIdx?_map] at hmap
  exact hmap

theorem demandCycle_of_declared (h : imports.map declared = base.imports.map declared)
    (scope : Scope) (chain : List Nat) (index : Nat) :
    demandCycle scope imports chain index = demandCycle scope base.imports chain index := by
  have hname (i : Nat) : imports[i]?.map (·.name) = base.imports[i]?.map (·.name) := by
    rw [← List.getElem?_map, ← List.getElem?_map, map_name_of_declared h]
  simp only [demandCycle, hname]

end

structure Changed (imports imports' : List (Import (Module τ))) (index : Nat)
    (site' : Import (Module τ)) : Prop where
  same : imports'.map declared = imports.map declared
  other : ∀ j, j ≠ index → imports'[j]? = imports[j]?
  new : imports'[index]? = some site'

namespace Changed

theorem trans (h : Changed imports imports' index site')
    (h' : Changed imports' imports'' index site'') : Changed imports imports'' index site'' :=
  ⟨h'.same.trans h.same, fun j hj => (h'.other j hj).trans (h.other j hj), h'.new⟩

theorem getElem?_cases (h : Changed imports imports' index site') {i : Nat}
    {now : Import (Module τ)} (hi : imports'[i]? = some now) :
    i = index ∧ now = site' ∨ i ≠ index ∧ imports[i]? = some now := by
  by_cases hindex : i = index
  · subst i
    exact .inl ⟨rfl, Option.some.inj (hi.symm.trans h.new)⟩
  · exact .inr ⟨hindex, (h.other i hindex).symm.trans hi⟩

theorem modify {change : Import (Module τ) → Import (Module τ)}
    (hchange : ∀ site, declared (change site) = declared site) (h : imports[index]? = some site) :
    Changed imports (imports.modify index change) index (change site) := by
  refine ⟨List.ext_getElem? fun i => ?_, fun j hj => ?_, ?_⟩
  · rw [List.getElem?_map, List.getElem?_map, List.getElem?_modify]
    cases imports[i]? with
    | none => rfl
    | some site => by_cases hi : index = i <;> simp [hi, hchange]
  · simp [Ne.symm hj]
  · simp [h]

theorem mark (state : ImportState) (h : imports[index]? = some site) :
    Changed imports (mark imports index state) index { site with state } :=
  modify (fun _ => rfl) h

theorem store (module : Module τ) (h : imports[index]? = some site) :
    Changed imports (store imports index module) index { site with module } :=
  modify (fun _ => rfl) h

end Changed

/-- A chain of imports of a module, none of them twice. -/
structure Proper (base : Module τ) (chain : List Nat) : Prop where
  nodup : chain.Nodup
  bounded : ∀ i ∈ chain, i < base.imports.length

namespace Proper

variable {chain : List Nat}

theorem nil : Proper base [] :=
  ⟨List.nodup_nil, by simp⟩

theorem append (h : Proper base chain) (hlt : index < base.imports.length) (hc : index ∉ chain) :
    Proper base (chain ++ [index]) := by
  refine ⟨?_, fun i hi => ?_⟩
  · rw [← List.concat_eq_append]
    exact h.nodup.concat hc
  · rcases List.mem_append.1 hi with hi | hi
    · exact h.bounded i hi
    · rwa [List.mem_singleton.1 hi]

end Proper

/-- The imports are declared as in `base`, and exactly those on the chain are marked as being
evaluated. -/
structure Marked (base : Module τ) (chain : List Nat) (imports : List (Import (Module τ))) :
    Prop where
  same : imports.map declared = base.imports.map declared
  evaluating : ∀ (i : Nat) (site : Import (Module τ)), imports[i]? = some site →
    (site.state = .evaluating ↔ i ∈ chain)

namespace Marked

variable {chain chain' : List Nat}

theorem changed (h : Marked base chain imports) (hchanged : Changed imports imports' index site')
    (hchain : ∀ j, j ≠ index → (j ∈ chain' ↔ j ∈ chain))
    (hevaluating : site'.state = .evaluating ↔ index ∈ chain') : Marked base chain' imports' := by
  refine ⟨hchanged.same.trans h.same, fun i now hi => ?_⟩
  obtain ⟨rfl, rfl⟩ | ⟨hindex, hi⟩ := hchanged.getElem?_cases hi
  · exact hevaluating
  · rw [hchain i hindex]
    exact h.evaluating i now hi

theorem enter (h : Marked base chain imports) (hi : imports[index]? = some site) :
    Marked base (chain ++ [index]) (mark imports index .evaluating) :=
  h.changed (.mark .evaluating hi) (fun j hj => by simp [hj]) (by simp)

theorem leave {state : ImportState} (h : Marked base (chain ++ [index]) imports)
    (hi : imports[index]? = some site) (hc : index ∉ chain) (hstate : state ≠ .evaluating) :
    Marked base chain (mark imports index state) :=
  h.changed (.mark state hi) (fun j hj => by simp [hj]) (by simp [hc, hstate])

theorem store {module : Module τ} (h : Marked base chain imports)
    (hi : imports[index]? = some site) : Marked base chain (store imports index module) :=
  h.changed (.store module hi) (fun _ _ => Iff.rfl) (h.evaluating index site hi)

theorem evaluating_last (h : Marked base (chain ++ [index]) imports)
    (hi : imports[index]? = some site) : site.state = .evaluating :=
  (h.evaluating index site hi).2 (by simp)

theorem params_eq (h : Marked base chain imports)
    (hb : Became base.imports imports index old site) : site.params = old.params := by
  obtain ⟨site₀, hold, hdeclared⟩ := declared_eq_of_getElem? h.same hb.new
  cases hold.symm.trans hb.old
  exact congrArg (·.2.2) hdeclared.symm

theorem not_mem (h : Marked base chain imports) (hi : imports[index]? = some site)
    (hs : site.state = .unevaluated) : index ∉ chain := by
  rw [← h.evaluating index site hi, hs]
  simp

end Marked

end ManifestModules.Module
