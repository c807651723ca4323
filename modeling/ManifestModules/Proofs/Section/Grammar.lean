import ManifestModules.Proofs.Module.Stack
import ManifestModules.Proofs.Table

/-!
# The grammar of sections

What may be written in a section is said in three parts: its imports, its parameters, and the one
resource beside them. The checks of a section accept just what all three parts allow, and find just
what is written there. Otherwise the first part that is wrong is named, and nothing is asked of the
source.
-/

namespace ManifestModules.Section

inductive GivenParams : Option Value → Entries → Prop
  | absent : GivenParams none []
  | null : GivenParams (some .null) []
  | map (params : Entries) : GivenParams (some (.map params)) params

/-- An import is a map of a name with a path, beside which parameters may stand. -/
inductive DeclaresImport : Value → ImportDeclaration → Prop
  | map {entries : Entries} {name path : String} {params : Entries} (size : entries.length ≤ 2)
    (target : Table.without entries paramsKey = [(name, .string path)])
    (given : GivenParams (entries.lookup paramsKey) params) :
    DeclaresImport (.map entries) ⟨name, path, params⟩

/-- A parameter is a name alone, or a map of a name with a description or null, beside which a
default may stand. -/
inductive DeclaresParam : Value → String × Parameter → Prop
  | name (name : String) : DeclaresParam (.string name) (name, ⟨none, none⟩)
  | described {entries : Entries} {name text : String}
    (only : Table.without entries defaultKey = [(name, .string text)]) :
    DeclaresParam (.map entries) (name, ⟨some text, entries.lookup defaultKey⟩)
  | undescribed {entries : Entries} {name : String}
    (only : Table.without entries defaultKey = [(name, .null)]) :
    DeclaresParam (.map entries) (name, ⟨none, entries.lookup defaultKey⟩)

/-- A list of declarations with distinct names. It may be missing or null. -/
inductive Declares {δ : Type} (Each : Value → δ → Prop) (nameOf : δ → String) :
    Option Value → List δ → Prop
  | absent : Declares Each nameOf none []
  | null : Declares Each nameOf (some .null) []
  | list {items : List Value} {declared : List δ} (each : List.Forall₂ Each items declared)
    (distinct : (declared.map nameOf).Nodup) : Declares Each nameOf (some (.list items)) declared

section

variable {ε α β : Type} {e : ε} {b : β}

/-- A check is passed before the rest. -/
theorem ite_throw_eq_ok {p : Prop} [Decidable p] {f : α → Except ε β} {x : Except ε β} :
    (if p then throw e >>= f else x) = .ok b ↔ ¬ p ∧ x = .ok b := by
  by_cases h : p <;> simp [h, throw, throwThe, MonadExceptOf.throw, bind, Except.bind]

end

section

variable {entries params : Entries} {value : Value} {declaration : ImportDeclaration}

theorem givenParams_none : GivenParams none params ↔ params = [] :=
  ⟨fun h => by cases h; rfl, fun h => h ▸ .absent⟩

theorem declaresImport_map : DeclaresImport (.map entries) declaration ↔ entries.length ≤ 2 ∧
    Table.without entries paramsKey = [(declaration.name, .string declaration.path)] ∧
    GivenParams (entries.lookup paramsKey) declaration.params := by
  constructor
  · rintro ⟨size, target, given⟩
    exact ⟨size, target, given⟩
  · rintro ⟨size, target, given⟩
    exact .map size target given

/-- The key of the parameters is read into the parameters. -/
theorem addKey_params {target : Option (String × String)} {after : PartialImport} :
    PartialImport.addKey ⟨target, []⟩ (paramsKey, value) = .ok after ↔
      ∃ params, GivenParams (some value) params ∧ after = ⟨target, params⟩ := by
  constructor
  · intro h
    cases value with
    | null =>
      cases h
      exact ⟨[], .null, rfl⟩
    | map params =>
      cases h
      exact ⟨params, .map params, rfl⟩
    | _ => cases h
  · rintro ⟨params, given, rfl⟩
    cases given <;> rfl

/-- It never gives a name. -/
theorem addKey_params_ne {target : String × String} {found after : Entries} :
    PartialImport.addKey ⟨none, found⟩ (paramsKey, value) ≠ .ok ⟨some target, after⟩ := by
  cases value <;> simp [PartialImport.addKey]

/-- Any other key is read as the name, unless there is one. -/
theorem addKey_target {found after : PartialImport} {key : String} (h : key ≠ paramsKey) :
    found.addKey (key, value) = .ok after ↔ found.target = none ∧
      ∃ path, value = .string path ∧ after = ⟨some (key, path), found.params⟩ := by
  rcases found with ⟨target, params⟩
  cases target <;> cases value <;> simp [PartialImport.addKey, h, eq_comm]

/-- The keys are read one by one, and a name must be among them. -/
theorem readImport_map : readImport (.map entries) = .ok declaration ↔
    entries ≠ [] ∧ ¬ entries.length > 2 ∧ entries.foldlM PartialImport.addKey ⟨none, []⟩ =
      .ok ⟨some (declaration.name, declaration.path), declaration.params⟩ := by
  rw [readImport, ite_throw_eq_ok, ite_throw_eq_ok, bind_eq_ok, List.isEmpty_iff]
  apply and_congr_right'
  apply and_congr_right'
  constructor
  · rintro ⟨⟨target, params⟩, hfound, h⟩
    cases target with
    | none => cases h
    | some target =>
      cases h
      exact hfound
  · intro h
    exact ⟨_, h, rfl⟩

theorem readImport_eq_ok :
    readImport value = .ok declaration ↔ DeclaresImport value declaration := by
  cases value with
  | map entries =>
    rcases declaration with ⟨name, path, params⟩
    rw [readImport_map, declaresImport_map]
    match entries with
    | [] => simp [Table.without]
    | [(k, v)] =>
      by_cases hk : k = paramsKey
      · subst hk
        simp [addKey_params, Table.without]
      · simp [addKey_target hk, Table.without, Table.lookup_cons, hk, Ne.symm hk, givenParams_none,
          and_assoc, and_left_comm, @eq_comm _ name]
    | [(k, v), (l, w)] =>
      by_cases hk : k = paramsKey <;> by_cases hl : l = paramsKey
      · subst hk hl
        simp [bind_eq_ok, addKey_params, addKey_params_ne, Table.without]
      · subst hk
        simp [bind_eq_ok, addKey_params, addKey_target hl, Table.without, hl, and_assoc,
          and_left_comm, and_comm, @eq_comm _ name]
      · subst hl
        simp [bind_eq_ok, addKey_params, addKey_target hk, Table.without, Table.lookup_cons, hk,
          Ne.symm hk, and_assoc, and_left_comm, and_comm, @eq_comm _ name]
      · simp [bind_eq_ok, addKey_target hk, addKey_target hl, Table.without, hl, hk]
    | _ :: _ :: _ :: _ => simp
  | _ =>
    constructor
    · rintro ⟨⟩
    · rintro ⟨⟩

/-- The items are declarations, and their names are new and distinct. -/
theorem readImportList_eq_ok {before imports : List ImportDeclaration} {items : List Value} :
    readImportList before items = .ok imports ↔ ∃ declared, imports = before ++ declared ∧
      List.Forall₂ DeclaresImport items declared ∧
      (declared.map (·.name)).Nodup ∧ ∀ d ∈ declared, d.name ∉ before.map (·.name) := by
  induction items generalizing before with
  | nil => simp [readImportList, eq_comm]
  | cons value rest ih =>
    simp only [readImportList, bind_eq_ok, ite_throw_eq_ok, ih, readImport_eq_ok,
      List.forall₂_cons_left_iff]
    constructor
    · rintro ⟨declaration, hdeclares, hnew, declared, rfl, heach, hdistinct, hfresh⟩
      refine ⟨declaration :: declared, by simp, ⟨_, _, hdeclares, heach, rfl⟩, ?_, ?_⟩
      · grind
      · grind
    · rintro ⟨_, rfl, ⟨declaration, declared, hdeclares, heach, rfl⟩, hdistinct, hfresh⟩
      refine ⟨declaration, hdeclares, ?_, declared, by simp, heach, ?_, ?_⟩
      · grind
      · grind
      · grind

theorem readParam_eq_ok {declared : String × Parameter} :
    readParam value = .ok declared ↔ DeclaresParam value declared := by
  constructor
  · intro h
    cases value with
    | string name =>
      cases h
      exact .name name
    | map entries =>
      rw [readParam] at h
      split at h
      · split at h
        · cases h
          exact .described ‹_›
        · cases h
          exact .undescribed ‹_›
        · cases h
      · cases h
    | _ => cases h
  · intro h
    cases h with
    | name name => rfl
    | described only => rw [readParam, only]
    | undescribed only => rw [readParam, only]

/-- A default that is written as null is a default. -/
example : readParam (.map [("default", .null), ("size", .string "how many")]) =
    .ok ("size", ⟨some "how many", some .null⟩) := rfl

theorem readParamList_eq_ok {before params : Table Parameter} {items : List Value} :
    readParamList before items = .ok params ↔ ∃ declared, params = Table.override before declared ∧
      List.Forall₂ DeclaresParam items declared ∧
      (declared.map (·.1)).Nodup ∧ ∀ d ∈ declared, before.lookup d.1 = none := by
  induction items generalizing before with
  | nil =>
    constructor
    · rintro ⟨⟩
      exact ⟨[], rfl, .nil, by simp⟩
    · rintro ⟨_, rfl, ⟨⟩, -⟩
      rfl
  | cons value rest ih =>
    simp only [readParamList, bind_eq_ok, ite_throw_eq_ok, ih, readParam_eq_ok,
      List.forall₂_cons_left_iff, Option.not_isSome_iff_eq_none, Table.lookup_put_eq_none]
    constructor
    · rintro ⟨⟨name, parameter⟩, hdeclares, hnew, declared, rfl, heach, hdistinct, hfresh⟩
      refine ⟨(name, parameter) :: declared, rfl, ⟨_, _, hdeclares, heach, rfl⟩, ?_, ?_⟩
      · grind
      · grind
    · rintro ⟨_, rfl, ⟨⟨name, parameter⟩, declared, hdeclares, heach, rfl⟩, hdistinct, hfresh⟩
      obtain ⟨hnew, hfresh⟩ := List.forall_mem_cons.1 hfresh
      refine ⟨(name, parameter), hdeclares, hnew, declared, rfl, heach, ?_, ?_⟩
      · grind
      · grind

theorem readImports_eq_ok {value : Option Value} {imports : List ImportDeclaration} :
    readImports value = .ok imports ↔ Declares DeclaresImport (·.name) value imports := by
  constructor
  · intro h
    simp only [readImports] at h
    split at h
    · cases h
      exact .absent
    · cases h
      exact .null
    · obtain ⟨declared, rfl, heach, hdistinct, -⟩ := readImportList_eq_ok.1 h
      exact .list heach hdistinct
    · cases h
  · intro h
    cases h with
    | absent => rfl
    | null => rfl
    | list each distinct => exact readImportList_eq_ok.2 ⟨_, rfl, each, distinct, by simp⟩

/-- The declared parameters make up a table. -/
theorem readParams_eq_ok {value : Option Value} {params : Table Parameter} :
    readParams value = .ok params ↔ ∃ declared, params = Table.ofPairs declared ∧
      Declares DeclaresParam (·.1) value declared := by
  constructor
  · intro h
    simp only [readParams] at h
    split at h
    · cases h
      exact ⟨[], rfl, .absent⟩
    · cases h
      exact ⟨[], rfl, .null⟩
    · obtain ⟨declared, rfl, heach, hdistinct, -⟩ := readParamList_eq_ok.1 h
      exact ⟨declared, rfl, .list heach hdistinct⟩
    · cases h
  · rintro ⟨declared, rfl, h⟩
    cases h with
    | absent => rfl
    | null => rfl
    | list each distinct => exact readParamList_eq_ok.2 ⟨declared, rfl, each, distinct, by simp⟩

end

/-! ### The three parts of a section -/

section

variable {path : String} {entries : Entries}

def ImportsOf (entries : Entries) : List ImportDeclaration → Prop :=
  Declares DeclaresImport (·.name) (entries.lookup importsKey)

def ParamsOf (entries : Entries) : List (String × Parameter) → Prop :=
  Declares DeclaresParam (·.1) (entries.lookup paramsKey)

/-- One entry is left beside the declarations. -/
def ResourceOf (entries : Entries) (resource : String × Value) : Prop :=
  Table.without (Table.without entries importsKey) paramsKey = [resource]

structure Describes (entries : Entries) (found : Section) : Prop where
  imports : ImportsOf entries found.imports
  params : ∃ declared, ParamsOf entries declared ∧ found.params.Perm declared ∧
    Table.Sorted found.params
  resource : ∃ resource, ResourceOf entries resource ∧ found.resource = [resource]

/-- A section fails by the first of its parts that is wrong. -/
inductive Refused (path : String) (entries : Entries) : Failure → Prop
  | imports (reason : String) (imports : ∀ declared, ¬ ImportsOf entries declared) :
    Refused path entries (.invalidImports path reason)
  | params (reason : String) (imports : ∃ declared, ImportsOf entries declared)
    (params : ∀ declared, ¬ ParamsOf entries declared) :
    Refused path entries (.invalidParams path reason)
  | resource (found : String) (imports : ∃ declared, ImportsOf entries declared)
    (params : ∃ declared, ParamsOf entries declared)
    (resource : ∀ resource, ¬ ResourceOf entries resource) :
    Refused path entries (.invalidExport path found)

theorem exists_resourceOf : (∃ resource, ResourceOf entries resource) ↔
    (Table.without (Table.without entries importsKey) paramsKey).length = 1 :=
  List.length_eq_one_iff.symm

theorem Declares.distinct {δ : Type} {Each : Value → δ → Prop} {nameOf : δ → String}
    {value : Option Value} {declared : List δ} (h : Declares Each nameOf value declared) :
    (declared.map nameOf).Nodup := by
  cases h with
  | absent => exact .nil
  | null => exact .nil
  | list _ distinct => exact distinct

/-- A table of declared parameters has them all. -/
theorem ParamsOf.table {declared : List (String × Parameter)} (h : ParamsOf entries declared) :
    (Table.ofPairs declared).Perm declared ∧ (Table.ofPairs declared).Sorted := by
  have hperm : (Table.override [] declared).Perm (declared ++ []) :=
    Table.perm_override (by simp) h.distinct
  rw [List.append_nil] at hperm
  exact ⟨hperm, Table.Sorted.override .nil declared⟩

/-- The parts are read in their order, and the first one that is wrong is named. -/
theorem ofEntries_cases (path : String) (entries : Entries) :
    (∃ found, ofEntries path entries = .ok found ∧ Describes entries found) ∨
      ∃ failure, ofEntries path entries = .error failure ∧ Refused path entries failure := by
  simp only [ofEntries]
  cases himports : readImports (entries.lookup importsKey) with
  | error fault =>
    refine .inr ⟨_, rfl, .imports _ fun declared h => ?_⟩
    rw [readImports_eq_ok.2 h] at himports
    cases himports
  | ok imports =>
    have himports := readImports_eq_ok.1 himports
    cases hparams : readParams (entries.lookup paramsKey) with
    | error fault =>
      refine .inr ⟨_, rfl, .params _ ⟨imports, himports⟩ fun declared h => ?_⟩
      rw [readParams_eq_ok.2 ⟨declared, rfl, h⟩] at hparams
      cases hparams
    | ok params =>
      obtain ⟨declared, rfl, hdeclared⟩ := readParams_eq_ok.1 hparams
      by_cases hresource : ∃ resource, ResourceOf entries resource
      · have hlength := exists_resourceOf.1 hresource
        obtain ⟨resource, hresource⟩ := hresource
        obtain ⟨hperm, hsorted⟩ := ParamsOf.table hdeclared
        refine .inl ⟨⟨imports, _, _⟩, if_pos hlength, himports, ?_, resource, hresource, hresource⟩
        exact ⟨declared, hdeclared, hperm, hsorted⟩
      · have hlength := mt exists_resourceOf.2 hresource
        refine .inr ⟨_, if_neg hlength, .resource _ ⟨imports, himports⟩ ⟨declared, hdeclared⟩ ?_⟩
        intro resource h
        exact hresource ⟨resource, h⟩

theorem ofEntries_describes {found : Section} (h : ofEntries path entries = .ok found) :
    Describes entries found := by
  obtain ⟨found', hfound, hdescribes⟩ | ⟨failure, hfailure, -⟩ := ofEntries_cases path entries
  · cases h.symm.trans hfound
    exact hdescribes
  · cases h.symm.trans hfailure

theorem ofEntries_refused {failure : Failure} (h : ofEntries path entries = .error failure) :
    Refused path entries failure := by
  obtain ⟨found, hfound, -⟩ | ⟨failure', hfailure, hrefused⟩ := ofEntries_cases path entries
  · cases h.symm.trans hfound
  · cases h.symm.trans hfailure
    exact hrefused

/-- A section is read if and only if its three parts are well-formed. -/
theorem exists_ofEntries : (∃ found, ofEntries path entries = .ok found) ↔
    (∃ declared, ImportsOf entries declared) ∧ (∃ declared, ParamsOf entries declared) ∧
      ∃ resource, ResourceOf entries resource := by
  constructor
  · rintro ⟨found, hfound⟩
    obtain ⟨imports, ⟨declared, params, -⟩, resource, hresource, -⟩ := ofEntries_describes hfound
    exact ⟨⟨_, imports⟩, ⟨declared, params⟩, resource, hresource⟩
  · rintro ⟨⟨_, himports⟩, ⟨_, hparams⟩, _, hresource⟩
    obtain ⟨found, hfound, -⟩ | ⟨failure, -, hrefused⟩ := ofEntries_cases path entries
    · exact ⟨found, hfound⟩
    · cases hrefused with
      | imports _ h => exact absurd himports (h _)
      | params _ _ h => exact absurd hparams (h _)
      | resource _ _ _ h => exact absurd hresource (h _)

end

open ManifestModules.Module

/-- The checks of a section accept its grammar and nothing else. What they find is what is written,
and loading goes on with just that. What they refuse they refuse for the first of the three parts
that is wrong, and loading stops there: the source is asked for nothing. -/
theorem ofEntries_grammar (path : String) (entries : Entries) :
    ((∃ found, ofEntries path entries = .ok found) ↔
      (∃ declared, ImportsOf entries declared) ∧ (∃ declared, ParamsOf entries declared) ∧
        ∃ resource, ResourceOf entries resource) ∧
    (∀ found, ofEntries path entries = .ok found → Describes entries found ∧
      ∀ {C ρ τ : Type} (source : Source (StateT C (StateM ρ)))
        (target : String → Effect C ρ (Imported τ)),
        loadSection source path target entries = do
          let (imports, diagnostics) ← loadImports source path target found.imports
          return ⟨path, imports, found.params, false, ⟨found.resource, none⟩, diagnostics⟩) ∧
    ∀ failure, ofEntries path entries = .error failure → Refused path entries failure ∧
      ∀ {C ρ τ : Type} (source : Source (StateT C (StateM ρ)))
        (target : String → Effect C ρ (Imported τ)) (c : C) (s : ρ),
        exec (loadSection source path target entries) c s = ⟨.error failure, c, s⟩ := by
  refine ⟨exists_ofEntries, fun found hfound => ⟨ofEntries_describes hfound, ?_⟩,
    fun failure hfailure => ⟨ofEntries_refused hfailure, ?_⟩⟩
  · intro C ρ τ source target
    rw [loadSection, hfound]
    rfl
  · intro C ρ τ source target c s
    exact exec_loadSection_malformed hfailure

end ManifestModules.Section
