import Mathlib.Data.List.Forall2
import Mathlib.Data.List.Nodup
import Mathlib.Logic.Relation
import ManifestModules.Proofs.Module.Answers

/-!
# Loading unfolds imports

The imports of a section unfold to a tree, which may be infinite. Loading succeeds exactly if every
place of this tree is sound, and then it makes the tree. The proof follows a chain of importers and
the room that it leaves below the depth limit.
-/

namespace ManifestModules.Module

variable {ρ τ α β : Type}

/-- A section in an unfolding, with the paths it was reached through, outermost first. -/
structure Place where
  importers : List String
  path : String
  entries : Entries

def Place.chain (place : Place) : List String :=
  place.importers ++ [place.path]

structure Leads (files : Source Id) (path : String) (declaration : ImportDeclaration)
    (target : String) (first : Entries) (others : List Entries) : Prop where
  resolve : (files.resolve path declaration.path).run = .ok target
  read : (files.read target).run = .ok (first :: others)

/-- One step down in an unfolding. -/
inductive Place.Imports (files : Source Id) : Place → Place → Prop
  | intro {place : Place} {found : Section} {declaration : ImportDeclaration} {target : String}
    {first : Entries} {others : List Entries}
    (shape : Section.ofEntries place.path place.entries = .ok found)
    (mem : declaration ∈ found.imports)
    (leads : Leads files place.path declaration target first others) :
    Imports files place ⟨place.chain, target, first⟩

/-- The section is well-formed and its imports lead on, no path is on the chain twice, and there are
at most `limit` imports between the root and the place. -/
structure Place.Sound (files : Source Id) (limit : Nat) (place : Place) : Prop where
  shape : ∃ found, Section.ofEntries place.path place.entries = .ok found ∧
    ∀ declaration ∈ found.imports, ∃ target first others,
      Leads files place.path declaration target first others
  nodup : place.chain.Nodup
  depth : place.importers.length ≤ limit

def Place.Unfoldable (files : Source Id) (limit : Nat) (place : Place) : Prop :=
  ∀ other, Relation.ReflTransGen (Imports files) place other → other.Sound files limit

mutual

/-- The module that a section unfolds to, without any progress. -/
inductive Unfolds (files : Source Id) : String → Entries → Module τ → Prop
  | intro {path : String} {entries : Entries} {found : Section}
    {imports : List (Import (Module τ))} {remarks : List String}
    (shape : Section.ofEntries path entries = .ok found)
    (unfolds : UnfoldsImports files path found.imports imports remarks) :
    Unfolds files path entries ⟨path, imports, found.params, false, ⟨found.resource, none⟩, remarks⟩

inductive UnfoldsImports (files : Source Id) :
    String → List ImportDeclaration → List (Import (Module τ)) → List String → Prop
  | nil {path : String} : UnfoldsImports files path [] [] []
  | cons {path target : String} {declaration : ImportDeclaration}
    {declarations : List ImportDeclaration} {first : Entries} {others : List Entries}
    {module : Module τ} {imports : List (Import (Module τ))} {remarks : List String}
    (leads : Leads files path declaration target first others)
    (unfolds : Unfolds files target first module)
    (rest : UnfoldsImports files path declarations imports remarks) :
    UnfoldsImports files path (declaration :: declarations)
      (⟨declaration.name, target, declaration.params, .unevaluated, module⟩ :: imports)
      ((extraSections? target (others.length + 1)).toList ++ remarks)

end

section

variable {files : Source Id}

theorem Leads.unique {path target target' : String} {declaration : ImportDeclaration}
    {first first' : Entries} {others others' : List Entries}
    (h : Leads files path declaration target first others)
    (h' : Leads files path declaration target' first' others') :
    target = target' ∧ first = first' ∧ others = others' := by
  cases h.resolve.symm.trans h'.resolve
  cases h.read.symm.trans h'.read
  exact ⟨rfl, rfl, rfl⟩

mutual

/-- A section unfolds to one module only. -/
theorem Unfolds.unique {path : String} {entries : Entries} {module module' : Module τ} :
    Unfolds files path entries module → Unfolds files path entries module' → module = module'
  | .intro shape imports, .intro shape' imports' => by
    cases shape.symm.trans shape'
    obtain ⟨rfl, rfl⟩ := imports.unique imports'
    rfl

theorem UnfoldsImports.unique {path : String} {declarations : List ImportDeclaration}
    {imports imports' : List (Import (Module τ))} {remarks remarks' : List String} :
    UnfoldsImports files path declarations imports remarks →
      UnfoldsImports files path declarations imports' remarks' →
      imports = imports' ∧ remarks = remarks'
  | .nil, .nil => ⟨rfl, rfl⟩
  | .cons leads module rest, .cons leads' module' rest' => by
    obtain ⟨rfl, rfl, rfl⟩ := leads.unique leads'
    obtain ⟨rfl, rfl⟩ := rest.unique rest'
    rw [module.unique module']
    exact ⟨rfl, rfl⟩

end

end

section

theorem value_mapM_eq_ok {f : α → ExceptT Failure Id β} {l : List α} {bs : List β} :
    value (l.mapM f) = .ok bs ↔ List.Forall₂ (fun a b => value (f a) = .ok b) l bs := by
  induction l generalizing bs with
  | nil =>
    rw [List.mapM_nil, value_pure_eq_ok, List.forall₂_nil_left_iff]
    exact eq_comm
  | cons a l ih =>
    rw [List.mapM_cons, value_bind_eq_ok, List.forall₂_cons_left_iff]
    constructor
    · rintro ⟨b, hb, hrest⟩
      obtain ⟨rest, hrest, hpure⟩ := value_bind_eq_ok.1 hrest
      exact ⟨b, rest, hb, ih.1 hrest, (value_pure_eq_ok.1 hpure).symm⟩
    · rintro ⟨b, rest, hb, hrest, rfl⟩
      exact ⟨b, hb, value_bind_eq_ok.2 ⟨rest, ih.2 hrest, rfl⟩⟩

theorem value_mapM_isOk {f : α → ExceptT Failure Id β} {l : List α} :
    (∃ bs, value (l.mapM f) = .ok bs) ↔ ∀ a ∈ l, ∃ b, value (f a) = .ok b := by
  simp only [value_mapM_eq_ok]
  induction l with
  | nil => exact ⟨fun _ _ h => (by cases h), fun _ => ⟨[], .nil⟩⟩
  | cons a l ih =>
    rw [List.forall_mem_cons, ← ih]
    constructor
    · rintro ⟨_, hb | ⟨hb, hbs⟩⟩
      exact ⟨⟨_, hb⟩, _, hbs⟩
    · rintro ⟨⟨b, hb⟩, bs, hbs⟩
      exact ⟨b :: bs, .cons hb hbs⟩

variable {files : Source Id} {path : String}

theorem value_readSections_eq_ok {sections : List Entries} :
    value (files.readSections path) = .ok sections ↔ (files.read path).run = .ok sections := by
  rw [value_readSections]
  cases (files.read path).run <;> simp [Except.mapError]

theorem value_resolvePath_eq_ok {written target : String} :
    value (files.resolvePath path written) = .ok target ↔
      (files.resolve path written).run = .ok target := by
  rw [value_resolvePath]
  cases (files.resolve path written).run <;> simp [Except.mapError]

variable {loadOne : String → ExceptT Failure Id (Imported τ)}

theorem value_loadImports_cons_eq_ok {declaration : ImportDeclaration}
    {rest : List ImportDeclaration} {found : List (Import (Module τ)) × List String} :
    value (loadImports files path loadOne (declaration :: rest)) = .ok found ↔
      ∃ target imported more, (files.resolve path declaration.path).run = .ok target ∧
        value (loadOne target) = .ok imported ∧
        value (loadImports files path loadOne rest) = .ok more ∧
        found = (⟨declaration.name, target, declaration.params, .unevaluated, imported.1⟩ :: more.1,
          imported.2.toList ++ more.2) := by
  rw [loadImports, value_bind_eq_ok]
  simp only [value_bind_eq_ok, value_pure_eq_ok, value_resolvePath_eq_ok]
  constructor
  · rintro ⟨target, htarget, imported, himported, more, hmore, rfl⟩
    exact ⟨target, imported, more, htarget, himported, hmore, rfl⟩
  · rintro ⟨target, imported, more, htarget, himported, hmore, rfl⟩
    exact ⟨target, htarget, imported, himported, more, hmore, rfl⟩

/-- All imports load if each of them does. -/
theorem value_loadImports_isOk {declarations : List ImportDeclaration} :
    (∃ found, value (loadImports files path loadOne declarations) = .ok found) ↔
      ∀ declaration ∈ declarations, ∃ target imported,
        (files.resolve path declaration.path).run = .ok target ∧
        value (loadOne target) = .ok imported := by
  induction declarations with
  | nil => exact ⟨fun _ _ h => (by cases h), fun _ => ⟨_, rfl⟩⟩
  | cons declaration rest ih =>
    rw [List.forall_mem_cons, ← ih]
    constructor
    · rintro ⟨found, hfound⟩
      obtain ⟨target, imported, more, htarget, himported, hmore, _⟩ :=
        value_loadImports_cons_eq_ok.1 hfound
      exact ⟨⟨target, imported, htarget, himported⟩, more, hmore⟩
    · rintro ⟨⟨target, imported, htarget, himported⟩, more, hmore⟩
      exact ⟨_, value_loadImports_cons_eq_ok.2
        ⟨target, imported, more, htarget, himported, hmore, rfl⟩⟩

theorem unfoldsImports_of_loadImports {declarations : List ImportDeclaration}
    {found : List (Import (Module τ)) × List String}
    (hone : ∀ target imported, value (loadOne target) = .ok imported → ∃ first others,
      (files.read target).run = .ok (first :: others) ∧ Unfolds files target first imported.1 ∧
      imported.2 = extraSections? target (others.length + 1))
    (h : value (loadImports files path loadOne declarations) = .ok found) :
    UnfoldsImports files path declarations found.1 found.2 := by
  induction declarations generalizing found with
  | nil =>
    cases h
    exact .nil
  | cons declaration rest ih =>
    obtain ⟨target, imported, more, htarget, himported, hmore, rfl⟩ :=
      value_loadImports_cons_eq_ok.1 h
    obtain ⟨first, others, hread, hunfolds, hremark⟩ := hone target imported himported
    rw [hremark]
    exact .cons ⟨htarget, hread⟩ hunfolds (ih hmore)

theorem value_loadSection_eq_ok {entries : Entries} {module : Module τ} :
    value (loadSection files path loadOne entries) = .ok module ↔
      ∃ found imports, Section.ofEntries path entries = .ok found ∧
        value (loadImports files path loadOne found.imports) = .ok imports ∧
        module = ⟨path, imports.1, found.params, false, ⟨found.resource, none⟩, imports.2⟩ := by
  rw [loadSection, value_bind_eq_ok]
  simp only [value_bind_eq_ok, value_pure_eq_ok, value_liftM]
  constructor
  · rintro ⟨found, hfound, imports, himports, rfl⟩
    exact ⟨found, imports, hfound, himports, rfl⟩
  · rintro ⟨found, imports, hfound, himports, rfl⟩
    exact ⟨found, hfound, imports, himports, rfl⟩

theorem cycleTo?_eq_none {chain : List String} : cycleTo? chain path = none ↔ path ∉ chain := by
  rw [cycleTo?]
  split_ifs with h <;> simp [h]

theorem value_loadTarget_eq_ok {limit room : Nat} {chain : List String} {imported : Imported τ} :
    value (loadTarget files limit room chain path) = .ok imported ↔
      path ∉ chain ∧ ∃ below first others module, room = below + 1 ∧
        (files.read path).run = .ok (first :: others) ∧
        value (loadSection files path (loadTarget files limit below (chain ++ [path])) first) =
          .ok module ∧
        imported = (module, extraSections? path (others.length + 1)) := by
  by_cases hc : path ∈ chain
  · obtain ⟨cycle, hcycle⟩ :=
      Option.ne_none_iff_exists'.1 (mt cycleTo?_eq_none.1 (not_not_intro hc))
    rw [loadTarget_again hcycle, value_throw]
    exact ⟨fun h => (by cases h), fun h => absurd hc h.1⟩
  have hnone := cycleTo?_eq_none.2 hc
  cases room with
  | zero =>
    rw [loadTarget_noRoom hnone, value_throw]
    refine ⟨fun h => (by cases h), ?_⟩
    rintro ⟨_, below, _, _, _, hroom, _⟩
    cases hroom
  | succ room =>
    rw [loadTarget_room hnone, value_bind_eq_ok]
    constructor
    · rintro ⟨sections, hsections, h⟩
      cases sections with
      | nil => cases h
      | cons first others =>
        obtain ⟨module, hmodule, hpure⟩ := value_bind_eq_ok.1 h
        exact ⟨hc, room, first, others, module, rfl, value_readSections_eq_ok.1 hsections, hmodule,
          (value_pure_eq_ok.1 hpure).symm⟩
    · rintro ⟨_, below, first, others, module, hroom, hread, hmodule, rfl⟩
      cases hroom
      exact ⟨first :: others, value_readSections_eq_ok.2 hread,
        value_bind_eq_ok.2 ⟨module, hmodule, rfl⟩⟩

end

section

variable {files : Source Id} {limit room : Nat}

theorem Place.chain_child (place : Place) (target : String) (first : Entries) :
    Place.chain ⟨place.chain, target, first⟩ = place.chain ++ [target] := rfl

theorem Place.length_chain (place : Place) : place.chain.length = place.importers.length + 1 := by
  rw [chain, List.length_append, List.length_singleton]

/-- An unfolding is sound at a place if it is sound below all imports. -/
theorem Place.unfoldable_of_imports {place : Place} {found : Section}
    (hshape : Section.ofEntries place.path place.entries = .ok found)
    (hnodup : place.chain.Nodup) (hdepth : place.importers.length ≤ limit)
    (himports : ∀ declaration ∈ found.imports, ∃ target first others,
      Leads files place.path declaration target first others ∧
        Place.Unfoldable files limit ⟨place.chain, target, first⟩) :
    place.Unfoldable files limit := by
  intro other hother
  rcases hother.cases_head with rfl | ⟨child, hchild, hrest⟩
  · refine ⟨⟨found, hshape, fun declaration hmem => ?_⟩, hnodup, hdepth⟩
    obtain ⟨target, first, others, hleads, -⟩ := himports declaration hmem
    exact ⟨target, first, others, hleads⟩
  · obtain ⟨hshape', hmem, hleads⟩ := hchild
    cases hshape.symm.trans hshape'
    obtain ⟨target, first, others, hleads', hbelow⟩ := himports _ hmem
    obtain ⟨rfl, rfl, rfl⟩ := hleads.unique hleads'
    exact hbelow other hrest

/-- What is loaded from a place is its unfolding, and all of the unfolding has been seen. -/
theorem loadSection_unfolds (place : Place) {module : Module τ}
    (hroom : place.importers.length + room = limit) (hnodup : place.chain.Nodup)
    (h : value (loadSection files place.path (loadTarget files limit room place.chain)
      place.entries) = .ok module) :
    place.Unfoldable files limit ∧ Unfolds files place.path place.entries module := by
  induction room using Nat.strongRecOn generalizing place module with
  | _ room ih =>
    obtain ⟨found, imports, hshape, himports, rfl⟩ := value_loadSection_eq_ok.1 h
    have hbelow {target : String} {imported : Imported τ}
        (himported : value (loadTarget files limit room place.chain target) = .ok imported) :
        ∃ first others, (files.read target).run = .ok (first :: others) ∧
          Place.Unfoldable files limit ⟨place.chain, target, first⟩ ∧
          Unfolds files target first imported.1 ∧
          imported.2 = extraSections? target (others.length + 1) := by
      obtain ⟨hc, below, first, others, module, rfl, hread, hmodule, rfl⟩ :=
        value_loadTarget_eq_ok.1 himported
      have hdepth : place.chain.length + below = limit := by
        rw [place.length_chain]
        omega
      have hchain : (place.chain ++ [target]).Nodup :=
        List.nodup_append.2 ⟨hnodup, by simp, by
          rintro a ha b hb rfl
          rw [List.mem_singleton] at hb
          exact hc (hb ▸ ha)⟩
      obtain ⟨hsound, hunfolds⟩ := ih below (by omega) ⟨place.chain, target, first⟩ hdepth
        hchain hmodule
      exact ⟨first, others, hread, hsound, hunfolds, rfl⟩
    constructor
    · refine Place.unfoldable_of_imports hshape hnodup (by omega) fun declaration hmem => ?_
      obtain ⟨target, imported, htarget, himported⟩ :=
        value_loadImports_isOk.1 ⟨imports, himports⟩ declaration hmem
      obtain ⟨first, others, hread, hsound, -⟩ := hbelow himported
      exact ⟨target, first, others, ⟨htarget, hread⟩, hsound⟩
    · refine .intro hshape (unfoldsImports_of_loadImports (fun target imported h => ?_) himports)
      obtain ⟨first, others, hread, -, hunfolds, hremark⟩ := hbelow h
      exact ⟨first, others, hread, hunfolds, hremark⟩

/-- From a place with a sound unfolding loading succeeds: every import leaves room for itself. -/
theorem loadSection_isOk (place : Place) (hroom : place.importers.length + room = limit)
    (h : place.Unfoldable files limit) :
    ∃ module : Module τ, value (loadSection files place.path
      (loadTarget files limit room place.chain) place.entries) = .ok module := by
  induction room using Nat.strongRecOn generalizing place with
  | _ room ih =>
    obtain ⟨found, hshape, hleads⟩ := (h place .refl).shape
    have himports : ∃ imports : List (Import (Module τ)) × List String,
        value (loadImports files place.path (loadTarget files limit room place.chain)
          found.imports) = .ok imports := by
      refine value_loadImports_isOk.2 fun declaration hmem => ?_
      obtain ⟨target, first, others, hlead⟩ := hleads declaration hmem
      have hstep : Place.Imports files place ⟨place.chain, target, first⟩ :=
        .intro hshape hmem hlead
      have hsound := h _ (.single hstep)
      have hc : target ∉ place.chain := by
        have hnodup := hsound.nodup
        rw [Place.chain_child, List.nodup_append] at hnodup
        exact fun hmem => hnodup.2.2 target hmem target (List.mem_singleton_self _) rfl
      have hdepth : place.chain.length ≤ limit := hsound.depth
      rw [place.length_chain] at hdepth
      obtain ⟨below, rfl⟩ : ∃ below, room = below + 1 := ⟨room - 1, by omega⟩
      have hchild : place.chain.length + below = limit := by
        rw [place.length_chain]
        omega
      obtain ⟨module, hmodule⟩ := ih below (by omega) ⟨place.chain, target, first⟩ hchild
        fun other hother => h other (.head hstep hother)
      exact ⟨target, _, hlead.resolve, value_loadTarget_eq_ok.2
        ⟨hc, below, first, others, module, rfl, hlead.read, hmodule, rfl⟩⟩
    obtain ⟨imports, himports⟩ := himports
    exact ⟨_, value_loadSection_eq_ok.2 ⟨found, imports, hshape, himports, rfl⟩⟩

variable (files limit) in
/-- The file at a path has sections, and all of them have sound unfoldings. -/
def Loadable (path : String) : Prop :=
  ∃ first others, (files.read path).run = .ok (first :: others) ∧
    ∀ entries ∈ first :: others, Place.Unfoldable files limit ⟨[], path, entries⟩

theorem value_load_eq_ok {path : String} {modules : List (Module τ)} :
    value (load files limit path) = .ok modules ↔
      ∃ first others, (files.read (normalizePath path)).run = .ok (first :: others) ∧
        value ((first :: others).mapM (loadSection files (normalizePath path)
          (loadTarget files limit limit [normalizePath path]))) = .ok modules := by
  rw [load, value_bind_eq_ok]
  constructor
  · rintro ⟨sections, hsections, h⟩
    cases sections with
    | nil => cases h
    | cons first others => exact ⟨first, others, value_readSections_eq_ok.1 hsections, h⟩
  · rintro ⟨first, others, hread, h⟩
    exact ⟨first :: others, value_readSections_eq_ok.2 hread, h⟩

theorem unfoldable_of_loadSection {path : String} {entries : Entries} {module : Module τ}
    (h : value (loadSection files path (loadTarget files limit limit [path]) entries) =
      .ok module) :
    Place.Unfoldable files limit ⟨[], path, entries⟩ ∧ Unfolds files path entries module :=
  loadSection_unfolds ⟨[], path, entries⟩ (Nat.zero_add limit) (List.nodup_singleton path) h

theorem value_load_isOk {path : String} :
    (∃ modules : List (Module τ), value (load files limit path) = .ok modules) ↔
      Loadable files limit (normalizePath path) := by
  simp only [value_load_eq_ok]
  constructor
  · rintro ⟨modules, first, others, hread, h⟩
    refine ⟨first, others, hread, fun entries hmem => ?_⟩
    obtain ⟨module, hmodule⟩ := value_mapM_isOk.1 ⟨modules, h⟩ entries hmem
    exact (unfoldable_of_loadSection hmodule).1
  · rintro ⟨first, others, hread, h⟩
    obtain ⟨modules, hmodules⟩ := value_mapM_isOk.2 fun entries hmem =>
      loadSection_isOk ⟨[], normalizePath path, entries⟩ (Nat.zero_add limit) (h entries hmem)
    exact ⟨modules, first, others, hread, hmodules⟩

theorem value_load_unfolds {path : String} {modules : List (Module τ)}
    (h : value (load files limit path) = .ok modules) :
    ∃ sections, (files.read (normalizePath path)).run = .ok sections ∧
      List.Forall₂ (Unfolds files (normalizePath path)) sections modules := by
  obtain ⟨first, others, hread, hmodules⟩ := value_load_eq_ok.1 h
  exact ⟨first :: others, hread, (value_mapM_eq_ok.1 hmodules).imp fun _ _ hmodule =>
    (unfoldable_of_loadSection hmodule).2⟩

end

/-- A source with fixed answers, behind a faithful cache or none, loads a path exactly if the
unfoldings of all its sections are sound, and makes these unfoldings. The cache stays faithful. -/
theorem load_unfolds {source : Source (StateM ρ)} {files : Source Id}
    (answers : Answers source files) {cache : Option Cache} (faithful : Faithful files cache)
    (limit : Nat) (path : String) (s : ρ) :
    let left := exec (load source.cached limit path : Effect _ _ (List (Module τ))) cache s
    ((∃ modules, left.result = .ok modules) ↔ Loadable files limit (normalizePath path)) ∧
    (∀ modules, left.result = .ok modules →
      ∃ sections, (files.read (normalizePath path)).run = .ok sections ∧
        List.Forall₂ (Unfolds files (normalizePath path)) sections modules) ∧
    Faithful files left.state := by
  obtain ⟨cache', s', hfaithful, hrun⟩ :=
    answers.served.load (τ := τ) limit path cache s faithful
  rw [hrun]
  exact ⟨value_load_isOk, fun modules h => value_load_unfolds h, hfaithful⟩

def podAnswers : Source Id where
  read path := ((podFiles.read path).run ()).1
  resolve importer written := ((podFiles.resolve importer written).run ()).1

theorem podFiles_answers : Answers podFiles podAnswers :=
  ⟨fun _ _ => rfl, fun _ _ _ => rfl⟩

theorem faithful_empty (files : Source Id) : Faithful files (some .empty) := by
  intro path sections h
  cases h

theorem load_pod_unfolds :
    (Answers podFiles podAnswers ∧ Faithful podAnswers (some .empty)) ∧
    (let left := exec (load podFiles.cached 1 "pod.yaml" : Effect _ _ (List (Module Unit)))
      (some .empty) ()
    ((∃ modules, left.result = .ok modules) ↔ Loadable podAnswers 1 (normalizePath "pod.yaml")) ∧
    (∀ modules, left.result = .ok modules →
      ∃ sections, (podAnswers.read (normalizePath "pod.yaml")).run = .ok sections ∧
        List.Forall₂ (Unfolds podAnswers (normalizePath "pod.yaml")) sections modules) ∧
    Faithful podAnswers left.state) :=
  ⟨⟨podFiles_answers, faithful_empty podAnswers⟩,
    load_unfolds podFiles_answers (faithful_empty podAnswers) 1 "pod.yaml" ()⟩

/-- The one import of the pod exceeds a limit of zero. -/
example : (exec (load podFiles.cached 0 "pod.yaml" : Effect _ _ (List (Module Unit)))
    (some .empty) ()).result = .error (.importDepthExceeded "a.yaml" 0) := rfl

end ManifestModules.Module
