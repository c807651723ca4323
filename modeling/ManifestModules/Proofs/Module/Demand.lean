import ManifestModules.Proofs.Effect
import ManifestModules.Proofs.Module.CallByName
import ManifestModules.Proofs.Table
import ManifestModules.Proofs.Template.Identifiers

/-!
# Demands

Which imports of a module an evaluation needs is a matter of names: of the heads of the holes in its
resource, of those in the parameter templates of what is needed, and of the parameters that shadow
them. The values of the parameters do not matter.
-/

namespace ManifestModules.Module

open Template

variable {τ : Type}

section

variable (module : Module τ) (given : Entries)

/-- A head means an import: the import has this name, and no parameter has it. -/
structure Names (head : String) (index : Nat) : Prop where
  unbound : (module.effectiveParams given).lookup head = none
  named : ∃ site, module.imports[index]? = some site ∧ site.name = head

/-- A hole in the parameter templates of an import names another import of the same module. -/
def Uses (index other : Nat) : Prop :=
  ∃ site, module.imports[index]? = some site ∧
    ∃ head ∈ heads site.params, Names module given head other

/-- The imports that an evaluation of the module needs. -/
inductive Demanded : Nat → Prop
  | resource {head : String} {index : Nat} (mem : head ∈ heads module.resource.raw)
    (names : Names module given head index) : Demanded index
  | params {index other : Nat} (demanded : Demanded index) (uses : Uses module given index other) :
    Demanded other

end

/-- The same parameters are given, perhaps with other values. -/
def SameKeys (given given' : Entries) : Prop :=
  ∀ key, key ∈ Table.keys given ↔ key ∈ Table.keys given'

variable {module : Module τ} {given given' : Entries}

theorem SameKeys.symm (h : SameKeys given given') : SameKeys given' given :=
  fun key => (h key).symm

theorem SameKeys.of_keys_eq (h : given.map Prod.fst = given'.map Prod.fst) :
    SameKeys given given' := by
  intro key
  rw [Table.keys, Table.keys, h]

theorem lookup_effectiveParams_eq_none {head : String} :
    (module.effectiveParams given).lookup head = none ↔
      module.defaults.lookup head = none ∧ head ∉ Table.keys given := by
  rw [effectiveParams, Table.lookup_override_eq_none, @Table.lookup_eq_none_iff _ given]

theorem Names.of_sameKeys (h : SameKeys given given') {head : String} {index : Nat}
    (hnames : Names module given head index) : Names module given' head index := by
  refine ⟨?_, hnames.named⟩
  have hunbound := lookup_effectiveParams_eq_none.1 hnames.unbound
  rw [h head] at hunbound
  exact lookup_effectiveParams_eq_none.2 hunbound

theorem Uses.of_sameKeys (h : SameKeys given given') {index other : Nat}
    (huses : Uses module given index other) : Uses module given' index other := by
  obtain ⟨site, hsite, head, hhead, hnames⟩ := huses
  exact ⟨site, hsite, head, hhead, hnames.of_sameKeys h⟩

theorem Demanded.of_sameKeys (h : SameKeys given given') {index : Nat}
    (hdemanded : Demanded module given index) : Demanded module given' index := by
  induction hdemanded with
  | resource mem names => exact .resource mem (names.of_sameKeys h)
  | params _ uses ih => exact .params ih (uses.of_sameKeys h)

/-- What is demanded depends on the names of the given parameters only. -/
theorem demanded_iff_of_sameKeys (h : SameKeys given given') (index : Nat) :
    Demanded module given index ↔ Demanded module given' index :=
  ⟨Demanded.of_sameKeys h, Demanded.of_sameKeys h.symm⟩

/-- Filled templates have the keys of the templates. -/
theorem filled_keys {resolve : Resolver Id} {templates received : Entries}
    (h : filled resolve templates = .ok received) :
    received.map Prod.fst = templates.map Prod.fst := by
  induction templates generalizing received with
  | nil =>
    cases h
    rfl
  | cons entry rest ih =>
    obtain ⟨key, value⟩ := entry
    rw [filled, substituteEntries] at h
    obtain ⟨first, _, hrest⟩ := value_bind_eq_ok.1 h
    obtain ⟨more, hmore, hpure⟩ := value_bind_eq_ok.1 hrest
    rw [← value_pure_eq_ok.1 hpure, List.map_cons, List.map_cons, ih hmore]

/-- If no two imports have the same name, the first with a name is the only one. -/
theorem findIdx?_of_names (hnodup : (module.imports.map (·.name)).Nodup) {head : String}
    {index : Nat} (h : Names module given head index) :
    module.imports.findIdx? (·.name = head) = some index := by
  obtain ⟨site, hsite, rfl⟩ := h.named
  obtain ⟨hlt, rfl⟩ := List.getElem?_eq_some_iff.1 hsite
  refine List.findIdx?_eq_some_iff_getElem.2 ⟨hlt, by simp, fun j hj => ?_⟩
  have hne := List.pairwise_iff_getElem.1 hnodup j index (by simp; omega) (by simpa using hlt) hj
  simpa using hne

theorem Demanded.exists_site {index : Nat} (h : Demanded module given index) :
    ∃ site, module.imports[index]? = some site := by
  cases h with
  | resource _ names =>
    obtain ⟨site, hsite, _⟩ := names.named
    exact ⟨site, hsite⟩
  | params _ uses =>
    obtain ⟨_, _, _, _, names⟩ := uses
    obtain ⟨site, hsite, _⟩ := names.named
    exact ⟨site, hsite⟩

theorem names_of_findIdx? {head : String} {index : Nat}
    (hunbound : (module.effectiveParams given).lookup head = none)
    (h : module.imports.findIdx? (·.name = head) = some index) :
    Names module given head index := by
  obtain ⟨hlt, hname, _⟩ := List.findIdx?_eq_some_iff_getElem.1 h
  exact ⟨hunbound, _, List.getElem?_eq_getElem hlt, by simpa using hname⟩

end ManifestModules.Module
