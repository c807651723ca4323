import ManifestModules.Proofs.Module.Blame
import ManifestModules.Proofs.Module.Dependencies

/-!
# Alternatives to a load

A file can be loaded with a higher depth limit, or in the way of an import. A higher limit changes
the outcome only if the lower one was exceeded, and an import is the first section of the file with
a remark on the others.
-/

namespace ManifestModules.Module

variable {ρ τ α β : Type} {files : Source Id} {limit limit' : Nat} {path : String}

/-- The result is also the second one, unless the depth limit was exceeded. -/
def WithinDepth (limit : Nat) (result result' : Except Failure α) : Prop :=
  (∃ target, result = .error (.importDepthExceeded target limit)) ∨ result = result'

theorem WithinDepth.bind {x y : ExceptT Failure Id α} {f g : α → ExceptT Failure Id β}
    (hx : WithinDepth limit (value x) (value y))
    (hf : ∀ a, WithinDepth limit (value (f a)) (value (g a))) :
    WithinDepth limit (value (x >>= f)) (value (y >>= g)) := by
  rcases hx with ⟨target, hdeep⟩ | hsame
  · exact .inl ⟨target, value_bind_error hdeep⟩
  · cases hvalue : value x with
    | error e =>
      rw [value_bind_error hvalue, value_bind_error (hsame.symm.trans hvalue)]
      exact .inr rfl
    | ok a =>
      rw [value_bind_ok hvalue, value_bind_ok (hsame.symm.trans hvalue)]
      exact hf a

def withinDepth (limit : Nat) : LoadRelation Id Id where
  Rel x y := WithinDepth limit (value x) (value y)
  pure _ := .inr rfl
  throw _ := .inr rfl
  bind := WithinDepth.bind

theorem served_within (files : Source Id) (limit : Nat) : (withinDepth limit).Served files files :=
  ⟨fun _ => .inr rfl, fun _ _ => .inr rfl⟩

/-- More room is used only where there was none left. -/
theorem loadTarget_within (files : Source Id) (limit limit' more room : Nat) (chain : List String)
    (path : String) :
    (withinDepth limit).Rel
      (loadTarget files limit room chain path : ExceptT Failure Id (Imported τ))
      (loadTarget files limit' (room + more) chain path) := by
  induction room generalizing chain path with
  | zero =>
    cases hcycle : cycleTo? chain path with
    | some cycle =>
      rw [loadTarget_again hcycle, loadTarget_again hcycle]
      exact .inr rfl
    | none =>
      rw [loadTarget_noRoom hcycle]
      exact .inl ⟨path, rfl⟩
  | succ room ih =>
    cases hcycle : cycleTo? chain path with
    | some cycle =>
      rw [loadTarget_again hcycle, loadTarget_again hcycle]
      exact .inr rfl
    | none =>
      rw [Nat.add_right_comm, loadTarget_room hcycle, loadTarget_room hcycle]
      apply (withinDepth limit).bind ((served_within files limit).read path)
      intro sections
      cases sections with
      | nil => exact .inr rfl
      | cons first rest =>
        apply (withinDepth limit).bind
        · exact (served_within files limit).loadSection path (ih (chain ++ [path])) first
        · intro module
          exact .inr rfl

theorem load_within (files : Source Id) (higher : limit ≤ limit') (path : String) :
    (withinDepth limit).Rel (load files limit path : ExceptT Failure Id (List (Module τ)))
      (load files limit' path) := by
  obtain ⟨more, rfl⟩ := Nat.exists_eq_add_of_le higher
  apply (withinDepth limit).bind ((served_within files limit).read (normalizePath path))
  intro sections
  cases sections with
  | nil => exact .inr rfl
  | cons first rest =>
    apply (withinDepth limit).mapM
    apply (served_within files limit).loadSection
    exact loadTarget_within files limit _ more limit _

theorem loadImport_within (files : Source Id) (higher : limit ≤ limit') (path : String) :
    (withinDepth limit).Rel (loadImport files limit path : ExceptT Failure Id (Module τ))
      (loadImport files limit' path) := by
  obtain ⟨more, rfl⟩ := Nat.exists_eq_add_of_le higher
  apply (withinDepth limit).bind
  · rw [Nat.add_right_comm]
    exact loadTarget_within files limit _ more (limit + 1) [] _
  · intro imported
    exact .inr rfl

/-- The depth limit only ever shows as the failure that it is exceeded. Whether a file is loaded as
a whole or as an import, a higher limit gives the same modules or the same failure otherwise. -/
theorem load_limits {source : Source (StateM ρ)} (answers : Answers source files)
    {cache cache' : Option Cache} (faithful : Faithful files cache)
    (faithful' : Faithful files cache') (higher : limit ≤ limit') (path : String) (s s' : ρ) :
    WithinDepth limit
      (exec (load source.cached limit path : Effect _ _ (List (Module τ))) cache s).result
      (exec (load source.cached limit' path : Effect _ _ (List (Module τ))) cache' s').result ∧
    WithinDepth limit
      (exec (loadImport source.cached limit path : Effect _ _ (Module τ)) cache s).result
      (exec (loadImport source.cached limit' path : Effect _ _ (Module τ)) cache' s').result := by
  constructor
  · obtain ⟨_, _, _, hload⟩ := answers.served.load (τ := τ) limit path cache s faithful
    obtain ⟨_, _, _, hload'⟩ := answers.served.load (τ := τ) limit' path cache' s' faithful'
    rw [hload, hload']
    exact load_within files higher path
  · obtain ⟨_, _, _, hload⟩ := answers.served.loadImport (τ := τ) limit path cache s faithful
    obtain ⟨_, _, _, hload'⟩ := answers.served.loadImport (τ := τ) limit' path cache' s' faithful'
    rw [hload, hload']
    exact loadImport_within files higher path

theorem diamondFiles_answers : Answers diamondFiles diamondAnswers :=
  ⟨fun _ _ => rfl, fun _ _ _ => rfl⟩

theorem load_diamond_limits :
    (Answers diamondFiles diamondAnswers ∧ Faithful diamondAnswers none ∧
      Faithful diamondAnswers (some .empty) ∧ 1 ≤ 2) ∧
    (exec (load diamondFiles.cached 1 "main.yaml" : Effect _ _ (List (Module Unit))) none
      ()).result = .error (.importDepthExceeded "base.yaml" 1) ∧
    WithinDepth 1
      (exec (load diamondFiles.cached 1 "main.yaml" : Effect _ _ (List (Module Unit))) none
        ()).result
      (exec (load diamondFiles.cached 2 "main.yaml" : Effect _ _ (List (Module Unit)))
        (some .empty) ()).result ∧
    WithinDepth 1
      (exec (loadImport diamondFiles.cached 1 "main.yaml" : Effect _ _ (Module Unit)) none
        ()).result
      (exec (loadImport diamondFiles.cached 2 "main.yaml" : Effect _ _ (Module Unit))
        (some .empty) ()).result := by
  have hnone : Faithful diamondAnswers none := trivial
  have hempty : Faithful diamondAnswers (some .empty) := faithful_empty diamondAnswers
  exact ⟨⟨diamondFiles_answers, hnone, hempty, by decide⟩, rfl,
    load_limits diamondFiles_answers hnone hempty (by decide) "main.yaml" () ()⟩

section

variable {modules : List (Module τ)} {first : Entries} {others : List Entries} {e : Failure}

theorem value_bind_pure (x : ExceptT Failure Id α) (f : α → β) :
    value (x >>= fun a => pure (f a)) = (value x).map f := by
  cases h : value x with
  | error e => exact value_bind_error h
  | ok a => exact value_bind_ok h

theorem value_loadImport : value (loadImport files limit path : ExceptT Failure Id (Module τ)) =
    (value (loadTarget files limit (limit + 1) [] (normalizePath path))).map
      fun (module, remark) =>
        { module with diagnostics := module.diagnostics ++ remark.toList } :=
  value_bind_pure _ _

/-- What is imported from a file is its first section. -/
theorem value_loadTarget_first (limit : Nat)
    (hread : value (files.readSections path) = .ok (first :: others)) :
    value (loadTarget files limit (limit + 1) [] path : ExceptT Failure Id (Imported τ)) =
      (value (loadSection files path (loadTarget files limit limit [path]) first)).map
        fun module => (module, extraSections? path (others.length + 1)) := by
  rw [loadTarget_room rfl, value_bind_ok hread]
  exact value_bind_pure _ _

theorem value_loadImport_of_load (h : value (load files limit path) = .ok modules) :
    ∃ sections first others, (files.read (normalizePath path)).run = .ok sections ∧
      modules = first :: others ∧ modules.length = sections.length ∧
      value (loadImport files limit path) = .ok { first with
        diagnostics := first.diagnostics ++
          (extraSections? (normalizePath path) sections.length).toList } := by
  obtain ⟨entries, rest, hread, hmodules⟩ := value_load_eq_ok.1 h
  cases value_mapM_eq_ok.1 hmodules with
  | @cons _ first _ others hfirst hothers =>
    have htarget := value_loadTarget_first (τ := τ) limit (value_readSections_eq_ok.2 hread)
    rw [hfirst] at htarget
    refine ⟨_, first, others, hread, rfl, ?_, ?_⟩
    · simp [hothers.length_eq]
    · rw [value_loadImport, htarget]
      rfl

/-- A failure of the first section comes before all others. -/
theorem value_load_of_loadImport
    (h : value (loadImport files limit path : ExceptT Failure Id (Module τ)) = .error e) :
    value (load files limit path : ExceptT Failure Id (List (Module τ))) = .error e := by
  rw [value_loadImport] at h
  have htarget := eq_error_of_map h
  cases hread : value (files.readSections (normalizePath path)) with
  | error cause =>
    rw [loadTarget_room rfl, value_bind_error hread] at htarget
    cases htarget
    rw [load, value_bind_error hread]
  | ok sections =>
    rw [load, value_bind_ok hread]
    cases sections with
    | nil =>
      rw [loadTarget_room rfl, value_bind_ok hread] at htarget
      cases htarget
      rfl
    | cons first others =>
      rw [value_loadTarget_first limit hread] at htarget
      simp only [List.mapM_cons]
      exact value_bind_error (eq_error_of_map htarget)

end

/-- The remark on further sections is there exactly if there are some. -/
theorem toList_extraSections? (path : String) (count : Nat) :
    (extraSections? path count).toList =
      if 1 < count then
        [s!"{path} has {count} document sections; only the first is imported"]
      else [] := by
  by_cases h : 1 < count <;> simp [extraSections?, h]

/-- A file that loads also loads as an import: this is the first of its modules, with a remark at
the end of its diagnostics if there are others. If it does not load as an import, it does not load
for the same reason. -/
theorem load_loadImport {source : Source (StateM ρ)} (answers : Answers source files)
    {cache cache' : Option Cache} (faithful : Faithful files cache)
    (faithful' : Faithful files cache') (limit : Nat) (path : String) (s s' : ρ) :
    let whole := exec (load source.cached limit path : Effect _ _ (List (Module τ))) cache s
    let single := exec (loadImport source.cached limit path : Effect _ _ (Module τ)) cache' s'
    let target := normalizePath path
    (∀ modules, whole.result = .ok modules →
      ∃ sections first others, (files.read target).run = .ok sections ∧
        modules = first :: others ∧ modules.length = sections.length ∧
        single.result = .ok { first with
          diagnostics := first.diagnostics ++
            if 1 < sections.length then
              [s!"{target} has {sections.length} document sections; only the first is imported"]
            else [] }) ∧
    ∀ e, single.result = .error e → whole.result = .error e := by
  obtain ⟨_, _, _, hwhole⟩ := answers.served.load (τ := τ) limit path cache s faithful
  obtain ⟨_, _, _, hsingle⟩ := answers.served.loadImport (τ := τ) limit path cache' s' faithful'
  intro whole single target
  simp only [whole, single, hwhole, hsingle]
  refine ⟨fun modules h => ?_, fun e h => value_load_of_loadImport h⟩
  obtain ⟨sections, first, others, hread, hmodules, hlength, hfirst⟩ := value_loadImport_of_load h
  rw [toList_extraSections?] at hfirst
  exact ⟨sections, first, others, hread, hmodules, hlength, hfirst⟩

theorem loadImport_diamond :
    (Answers diamondFiles diamondAnswers ∧ Faithful diamondAnswers none ∧
      Faithful diamondAnswers (some .empty)) ∧
    (let whole := exec (load diamondFiles.cached 2 "main.yaml" : Effect _ _ (List (Module Unit)))
      none ()
    let single := exec (loadImport diamondFiles.cached 2 "main.yaml" : Effect _ _ (Module Unit))
      (some .empty) ()
    let target := normalizePath "main.yaml"
    (∃ first other module, whole.result = .ok [first, other] ∧ single.result = .ok module ∧
      first.diagnostics = [] ∧
      module.diagnostics =
        ["main.yaml has 2 document sections; only the first is imported"]) ∧
    (∀ modules, whole.result = .ok modules →
      ∃ sections first others, (diamondAnswers.read target).run = .ok sections ∧
        modules = first :: others ∧ modules.length = sections.length ∧
        single.result = .ok { first with
          diagnostics := first.diagnostics ++
            if 1 < sections.length then
              [s!"{target} has {sections.length} document sections; only the first is imported"]
            else [] }) ∧
    ∀ e, single.result = .error e → whole.result = .error e) ∧
    (exec (loadImport diamondFiles.cached 1 "main.yaml" : Effect _ _ (Module Unit)) (some .empty)
      ()).result = .error (.importDepthExceeded "base.yaml" 1) ∧
    (exec (load diamondFiles.cached 1 "main.yaml" : Effect _ _ (List (Module Unit))) none
      ()).result = .error (.importDepthExceeded "base.yaml" 1) := by
  have hnone : Faithful diamondAnswers none := trivial
  have hempty : Faithful diamondAnswers (some .empty) := faithful_empty diamondAnswers
  have hdeep : (exec (loadImport diamondFiles.cached 1 "main.yaml" : Effect _ _ (Module Unit))
      (some .empty) ()).result = .error (.importDepthExceeded "base.yaml" 1) := rfl
  have hshallow := load_loadImport (τ := Unit) diamondFiles_answers hnone hempty 1 "main.yaml" () ()
  exact ⟨⟨diamondFiles_answers, hnone, hempty⟩, ⟨⟨_, _, _, rfl, rfl, rfl, by decide⟩,
    load_loadImport diamondFiles_answers hnone hempty 2 "main.yaml" () ()⟩,
    hdeep, hshallow.2 _ hdeep⟩

end ManifestModules.Module
