import ManifestModules.Proofs.Module.Bare
import ManifestModules.Proofs.Module.Marks
import Mathlib.Data.Finset.Card
import Mathlib.Logic.Equiv.Basic

/-!
# Modules that evaluation cannot tell apart

Evaluation finds imports by name and works on them by position. It does the same with modules that
list their imports in another order, as long as the names tell them apart, and it never looks at
what resources were converted to.
-/

namespace ManifestModules.Module

variable {τ τ' α : Type}

/-- Where the imports of the module at each place are moved. Places are named by the positions of
imports before the move. -/
abbrev Rearrangement := List Nat → Equiv.Perm Nat

namespace Rearrangement

def below (ρ : Rearrangement) (index : Nat) : Rearrangement :=
  fun place => ρ (index :: place)

/-- Where the module at a place is found afterwards. -/
def moved (ρ : Rearrangement) : List Nat → List Nat
  | [] => []
  | index :: place => ρ [] index :: (ρ.below index).moved place

def still : Rearrangement :=
  fun _ => Equiv.refl Nat

theorem moved_still (place : List Nat) : still.moved place = place := by
  induction place with
  | nil => rfl
  | cons index place ih => exact congrArg (index :: ·) ih

end Rearrangement

theorem nodup_iff_getElem? {l : List α} :
    l.Nodup ↔ ∀ (i j : Nat) (a : α), l[i]? = some a → l[j]? = some a → i = j := by
  constructor
  · intro h i j a hi hj
    obtain ⟨hlt, -⟩ := List.getElem?_eq_some_iff.1 hi
    exact (List.getElem?_inj hlt h).1 (hi.trans hj.symm)
  · intro h
    rw [List.nodup_iff_getElem?_ne_getElem?]
    intro i j hij hj heq
    have hlast := List.getElem?_eq_getElem hj
    exact absurd (h i j _ (heq.trans hlast) hlast) (Nat.ne_of_lt hij)

/-- An import is found where its name is listed. -/
theorem findIdx?_eq_some_iff {imports : List (Import (Module τ))}
    (h : (imports.map (·.name)).Nodup) (name : String) (i : Nat) :
    imports.findIdx? (·.name = name) = some i ↔ (imports.map (·.name))[i]? = some name := by
  have hfound {k : Nat} (hk : imports.findIdx? (·.name = name) = some k) :
      (imports.map (·.name))[k]? = some name := by
    obtain ⟨hlt, hname, -⟩ := List.findIdx?_eq_some_iff_getElem.1 hk
    rw [List.getElem?_map, List.getElem?_eq_getElem hlt, Option.map_some, of_decide_eq_true hname]
  constructor
  · exact hfound
  · intro hi
    cases hk : imports.findIdx? (·.name = name) with
    | some k => rw [nodup_iff_getElem?.1 h k i name (hfound hk) hi]
    | none =>
      obtain ⟨site, hsite, hname⟩ := List.mem_map.1 (List.mem_of_getElem? hi)
      simpa [hname] using List.findIdx?_eq_none_iff.1 hk site hsite

/-- Lists with the same positions, up to a permutation, are of one length. -/
theorem length_eq_of_getElem?_none {l : List α} {β : Type} {l' : List β} (move : Equiv.Perm Nat)
    (h : ∀ i, l'[move i]? = none ↔ l[i]? = none) : l'.length = l.length := by
  have hrange : Finset.range l'.length = (Finset.range l.length).map move.toEmbedding := by
    ext k
    obtain ⟨i, rfl⟩ := move.surjective k
    have hi := not_congr (h i)
    simp only [List.getElem?_eq_none_iff, not_le] at hi
    simp [hi]
  have hcard := congrArg Finset.card hrange
  rwa [Finset.card_map, Finset.card_range, Finset.card_range] at hcard

/-- Imports are listed in another order, and the modules at corresponding positions are alike. -/
structure Aligned (Alike : Rearrangement → Module τ → Module τ' → Prop)
    (Listed : Rearrangement → List String → Prop) (ρ : Rearrangement)
    (imports : List (Import (Module τ))) (imports' : List (Import (Module τ'))) : Prop where
  listed : Listed ρ (imports.map (·.name))
  sites : ∀ i, imports'[ρ [] i]?.map shown = imports[i]?.map shown
  modules : ∀ i site site', imports[i]? = some site → imports'[ρ [] i]? = some site' →
    Alike (ρ.below i) site.module site'.module

structure Resembles (module : Module τ) (module' : Module τ') : Prop where
  path : module'.path = module.path
  params : module'.params = module.params
  evaluated : module'.evaluated = module.evaluated
  raw : module'.resource.raw = module.resource.raw

/-- A relation between modules that evaluation respects. It comes with what is known of the names of
imports, which have to tell them apart if they are moved, and with a relation between
conversions. -/
structure Likeness (τ τ' : Type) where
  Alike : Rearrangement → Module τ → Module τ' → Prop
  Listed : Rearrangement → List String → Prop
  Typed : Conversion τ → Conversion τ' → Prop
  separate : ∀ {ρ : Rearrangement} {names : List String}, Listed ρ names →
    ρ [] = Equiv.refl Nat ∨ names.Nodup
  resembles : ∀ {ρ : Rearrangement} {module : Module τ} {module' : Module τ'},
    Alike ρ module module' → Resembles module module'
  aligned : ∀ {ρ : Rearrangement} {module : Module τ} {module' : Module τ'},
    Alike ρ module module' → Aligned Alike Listed ρ module.imports module'.imports
  with_imports : ∀ {ρ : Rearrangement} {module : Module τ} {module' : Module τ'}
    {imports : List (Import (Module τ))} {imports' : List (Import (Module τ'))},
    Alike ρ module module' → Aligned Alike Listed ρ imports imports' →
      Alike ρ { module with imports } { module' with imports := imports' }
  converted : ∀ {ρ : Rearrangement} {module : Module τ} {module' : Module τ'} (raw : Entries)
    {typed : Conversion τ} {typed' : Conversion τ'},
    Alike ρ module module' → Typed typed typed' →
      Alike ρ { module with resource := ⟨raw, some typed⟩, evaluated := true }
        { module' with resource := ⟨raw, some typed'⟩, evaluated := true }

namespace Aligned

section

variable {Alike : Rearrangement → Module τ → Module τ' → Prop}
  {Listed : Rearrangement → List String → Prop} {ρ : Rearrangement}
  {imports : List (Import (Module τ))} {imports' : List (Import (Module τ'))}
  (h : Aligned Alike Listed ρ imports imports') {i : Nat} {site : Import (Module τ)}
include h

theorem none_iff : imports'[ρ [] i]? = none ↔ imports[i]? = none := by
  rw [← Option.map_eq_none_iff (f := shown), h.sites i, Option.map_eq_none_iff]

theorem exists_site (hi : imports[i]? = some site) :
    ∃ site', imports'[ρ [] i]? = some site' ∧ shown site' = shown site := by
  have hsites := h.sites i
  rw [hi, Option.map_some] at hsites
  exact Option.map_eq_some_iff.1 hsites

theorem getElem?_name (i : Nat) :
    (imports'.map (·.name))[ρ [] i]? = (imports.map (·.name))[i]? := by
  have hname := congrArg (Option.map fun shown => shown.1.1) (h.sites i)
  rw [Option.map_map, Option.map_map] at hname
  rw [List.getElem?_map, List.getElem?_map]
  exact hname

theorem mem_names (name : String) :
    name ∈ imports'.map (·.name) ↔ name ∈ imports.map (·.name) := by
  rw [List.mem_iff_getElem?, List.mem_iff_getElem?, (ρ []).surjective.exists]
  simp only [h.getElem?_name]

theorem nodup_names (hnames : (imports.map (·.name)).Nodup) : (imports'.map (·.name)).Nodup := by
  rw [nodup_iff_getElem?, (ρ []).surjective.forall₂]
  intro i j name hi hj
  rw [h.getElem?_name] at hi hj
  rw [nodup_iff_getElem?.1 hnames i j name hi hj]

/-- The names on a chain are the same, and the chain comes back at the same one. -/
theorem demandCycle (scope : Scope) (chain : List Nat) (i : Nat) :
    demandCycle scope imports' (chain.map (ρ [])) (ρ [] i) =
      Module.demandCycle scope imports chain i := by
  have hname (i : Nat) : imports'[ρ [] i]?.map (·.name) = imports[i]?.map (·.name) := by
    simpa using h.getElem?_name i
  have hstart : (chain.map (ρ [])).dropWhile (· ≠ ρ [] i) =
      (chain.dropWhile (· ≠ i)).map (ρ []) := by
    rw [List.dropWhile_map]
    congr 2
    funext j
    simp
  -- Positions on the chain are moved by an injection, so that it comes back at the moved one.
  simp only [Module.demandCycle, List.mem_map_of_injective (ρ []).injective, hstart]
  by_cases hi : i ∈ chain
  · simp [hi, hname, Function.comp_def]
  · simp [hi, hname, Function.comp_def]

/-- Corresponding imports are changed in corresponding ways. -/
theorem modify {change : Import (Module τ) → Import (Module τ)}
    {change' : Import (Module τ') → Import (Module τ')} (i : Nat)
    (hname : ∀ site, (change site).name = site.name)
    (hshown : ∀ site site', shown site' = shown site → shown (change' site') = shown (change site))
    (hmodules : ∀ site site', imports[i]? = some site → imports'[ρ [] i]? = some site' →
      Alike (ρ.below i) (change site).module (change' site').module) :
    Aligned Alike Listed ρ (imports.modify i change) (imports'.modify (ρ [] i) change') := by
  have hnames : (imports.modify i change).map (·.name) = imports.map (·.name) := by
    ext j : 1
    rw [List.getElem?_map, List.getElem?_map, List.getElem?_modify]
    by_cases hj : i = j
    · simp [hj, hname, Function.comp_def]
    · simp [hj]
  refine ⟨hnames ▸ h.listed, fun j => ?_, fun j now now' hnow hnow' => ?_⟩
  · rw [List.getElem?_modify, List.getElem?_modify]
    by_cases hj : i = j
    · subst j
      cases hi : imports[i]? with
      | none => simp [h.none_iff.2 hi]
      | some site =>
        obtain ⟨site', hsite', hsame⟩ := h.exists_site hi
        simp [hsite', hshown site site' hsame]
    · simpa [hj] using h.sites j
  · rw [List.getElem?_modify] at hnow hnow'
    by_cases hj : i = j
    · subst j
      simp only [if_true, Option.map_eq_map, Option.map_eq_some_iff] at hnow hnow'
      obtain ⟨site, hsite, rfl⟩ := hnow
      obtain ⟨site', hsite', rfl⟩ := hnow'
      exact hmodules site site' hsite hsite'
    · simp only [hj, if_false, (ρ []).injective.eq_iff, Option.map_eq_map, Option.map_id_fun',
        id_eq] at hnow hnow'
      exact h.modules j now now' hnow hnow'

theorem mark (i : Nat) (state : ImportState) :
    Aligned Alike Listed ρ (mark imports i state) (Module.mark imports' (ρ [] i) state) := by
  refine h.modify i (fun _ => rfl) (fun site site' hsame => ?_) (h.modules i)
  simp only [shown, Prod.mk.injEq] at hsame
  exact Prod.ext hsame.1 rfl

theorem store {inner : Module τ} {inner' : Module τ'} (i : Nat)
    (hinner : Alike (ρ.below i) inner inner') :
    Aligned Alike Listed ρ (store imports i inner) (Module.store imports' (ρ [] i) inner') :=
  h.modify i (fun _ => rfl) (fun _ _ hsame => hsame) fun _ _ _ _ => hinner

end

section

variable {l : Likeness τ τ'} {ρ : Rearrangement} {imports : List (Import (Module τ))}
  {imports' : List (Import (Module τ'))} (h : Aligned l.Alike l.Listed ρ imports imports')
include h

theorem findIdx? (name : String) :
    imports'.findIdx? (·.name = name) = (imports.findIdx? (·.name = name)).map (ρ []) := by
  -- Without a move the names are listed as before, and need not be distinct.
  rcases l.separate h.listed with hstill | hnodup
  · have hnames : imports'.map (·.name) = imports.map (·.name) := by
      ext i : 1
      simpa [hstill] using h.getElem?_name i
    have hfound := congrArg (List.findIdx? (· = name)) hnames
    simpa [List.findIdx?_map, Function.comp_def, hstill] using hfound
  · ext k
    obtain ⟨i, rfl⟩ := (ρ []).surjective k
    rw [findIdx?_eq_some_iff (h.nodup_names hnodup), h.getElem?_name,
      ← findIdx?_eq_some_iff hnodup]
    simp

theorem bodyAt (i : Nat) : bodyAt imports' (ρ [] i) = Module.bodyAt imports i := by
  rw [Module.bodyAt, Module.bodyAt]
  cases hi : imports[i]? with
  | none =>
    rw [h.none_iff.2 hi]
    rfl
  | some site =>
    obtain ⟨site', hsite', -⟩ := h.exists_site hi
    have hraw := (l.resembles (h.modules i site site' hi hsite')).raw
    rw [hsite', Option.bind_some, Option.bind_some, Resource.body?, Resource.body?, hraw]

end

end Aligned

theorem map_eq_of_shown {f : Module τ → Module τ'} {site : Import (Module τ)}
    {site' : Import (Module τ')} (hshown : shown site' = shown site)
    (hmodule : f site.module = site'.module) : Import.map f site = site' := by
  cases site
  cases site'
  simp_all [shown, declared, Import.map]

namespace Likeness

/-- Modules are like what a map leaves of them that only changes the results of conversions. -/
def ofMap (f : Module τ → Module τ') (typed : Conversion τ → Conversion τ')
    (map : ∀ module, f module =
      ⟨module.path, module.imports.map (Import.map f), module.params, module.evaluated,
        ⟨module.resource.raw, module.resource.typed.map typed⟩, module.diagnostics⟩) :
    Likeness τ τ' where
  Alike ρ module module' := ρ = .still ∧ f module = module'
  Listed ρ _ := ρ = .still
  Typed converted converted' := typed converted = converted'
  separate := by
    rintro ρ names rfl
    exact .inl rfl
  resembles := by
    rintro ρ module _ ⟨-, rfl⟩
    rw [map]
    exact ⟨rfl, rfl, rfl, rfl⟩
  aligned := by
    rintro ρ module _ ⟨rfl, rfl⟩
    rw [map]
    refine ⟨rfl, fun i => ?_, fun i site site' hi hi' => ⟨rfl, ?_⟩⟩
    · rw [List.getElem?_map, Option.map_map]
      rfl
    · simp only [Rearrangement.still, Equiv.refl_apply, List.getElem?_map, hi] at hi'
      cases hi'
      rfl
  with_imports := by
    rintro ρ module _ imports imports' ⟨rfl, rfl⟩ haligned
    have himports : imports.map (Import.map f) = imports' := by
      ext i : 1
      rw [List.getElem?_map]
      cases hi : imports[i]? with
      | none => exact (haligned.none_iff.2 hi).symm
      | some site =>
        obtain ⟨site', hi', hshown⟩ := haligned.exists_site hi
        obtain ⟨-, hmodule⟩ := haligned.modules i site site' hi hi'
        exact (congrArg some (map_eq_of_shown hshown hmodule)).trans hi'.symm
    refine ⟨rfl, ?_⟩
    rw [map, map module, himports]
  converted := by
    rintro ρ module _ raw converted _ ⟨rfl, rfl⟩ rfl
    refine ⟨rfl, ?_⟩
    rw [map, map module]
    rfl

theorem map_eq_of_forall₂ {f : Module τ → Module τ'} {typed : Conversion τ → Conversion τ'} {map}
    {modules : List (Module τ)} {modules' : List (Module τ')}
    (h : List.Forall₂ ((ofMap f typed map).Alike .still) modules modules') :
    modules.map f = modules' := by
  have heq : List.Forall₂ (fun module module' => f module = module') modules modules' :=
    h.imp fun _ _ h => h.2
  rwa [← List.forall₂_map_left_iff, List.forall₂_eq_eq_eq] at heq

def same (τ : Type) : Likeness τ τ :=
  .ofMap id id fun module => by
    have hid : (Import.map id : Import (Module τ) → Import (Module τ)) = id := rfl
    cases module
    rw [hid, List.map_id, Option.map_id]
    rfl

theorem eq_of_forall₂_same {modules modules' : List (Module τ)}
    (h : List.Forall₂ ((same τ).Alike .still) modules modules') : modules = modules' := by
  have hmap := map_eq_of_forall₂ h
  rwa [List.map_id] at hmap

def bare (τ : Type) : Likeness τ Unit :=
  .ofMap Module.bare (fun _ => .typed ()) fun module => by
    rw [bare_eq, bareImports_eq_map]
    rfl

end Likeness

end ManifestModules.Module
