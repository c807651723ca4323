import ManifestModules.CommandLine.Evaluation
import ManifestModules.Proofs.Module.Answers
import ManifestModules.Proofs.Module.Evaluation
import ManifestModules.Proofs.Module.Unfolding

/-!
# Evaluating files one after the other

The cache that the files share is filled by the files before, but it holds nothing that is not read
again from the same place. Hence each file has the resources or the trouble that it has alone, the
texts of two lists of files can be joined, and the first file with trouble decides.
-/

namespace ManifestModules.CommandLine

open ManifestModules.Module

variable {ε δ α β : Type}

/-! ## Work behind a cache -/

/-- Behind any faithful cache a computation has the result that another one has without a cache, and
the cache stays faithful. -/
def recalling (files : Source Id) : Concord (StateT (Option Cache) Id) Id where
  Rel x y := ∀ cache, Faithful files cache →
    ∃ cache', Faithful files cache' ∧ (x.run cache).run = (y.run, cache')
  pure a := fun cache h => ⟨cache, h, rfl⟩
  bind hx hf := by
    intro cache h
    obtain ⟨cache', h', hrun⟩ := hx cache h
    simp only [StateT.run_bind, Id.run_bind, hrun]
    exact hf _ cache' h'

abbrev Recalls (files : Source Id) (x : ExceptT ε (StateT (Option Cache) Id) α)
    (y : ExceptT ε Id α) : Prop :=
  ((recalling files).failing ε).Rel x y

namespace Recalls

variable {files : Source Id} {x : ExceptT ε (StateT (Option Cache) Id) α} {y : ExceptT ε Id α}

theorem ofExcept (r : Except ε α) :
    Recalls files (ExceptT.mk (Pure.pure r)) (ExceptT.mk (Pure.pure r)) :=
  (recalling files).pure r

theorem pure (a : α) : Recalls (ε := ε) files (Pure.pure a) (Pure.pure a) :=
  ofExcept (.ok a)

theorem bind {f : α → ExceptT ε (StateT (Option Cache) Id) β} {g : α → ExceptT ε Id β}
    (hx : Recalls files x y) (hf : ∀ a, Recalls files (f a) (g a)) :
    Recalls files (x >>= f) (y >>= g) :=
  ((recalling files).failing ε).bind hx hf

theorem adapt {f : ε → δ} (h : Recalls files x y) :
    Recalls files (ExceptT.adapt f x) (ExceptT.adapt f y) := by
  intro cache hcache
  obtain ⟨cache', hcache', hrun⟩ := h cache hcache
  refine ⟨cache', hcache', ?_⟩
  change (StateT.run (Except.mapError f <$> x.run) cache).run = _
  rw [StateT.run_map, Id.run_map, hrun]
  rfl

theorem aroundFailure {x : ExceptT Failure (StateT (Option Cache) Id) α}
    {y : ExceptT Failure Id α} (context : String) (h : Recalls files x y) :
    Recalls files (Trouble.aroundFailure context x) (Trouble.aroundFailure context y) :=
  h.adapt.adapt

end Recalls

/-! ## Loading and evaluating behind a cache -/

variable (files : Source Id) (limit : Nat) (params : Entries)

theorem recalling_read (path : String) :
    (recalling files).Rel (files.cached.read path) (files.read path) := by
  intro cache h
  cases cache with
  | none => exact ⟨none, h, rfl⟩
  | some cache =>
    rw [run_cached_read]
    cases hfound : cache.documents.lookup path with
    | some sections =>
      have hhit : Faithful files (some { cache with hits := cache.hits + 1 }) := h
      exact ⟨_, hhit, by rw [h path sections hfound]; rfl⟩
    | none =>
      have hmiss : Faithful files (some { cache with misses := cache.misses + 1 }) := h
      exact ⟨_, hmiss.learned path rfl, rfl⟩

theorem recalling_served : (loading (recalling files).relator).Served files.cached files := by
  apply served_loading
  · exact fun path => Concord.related (recalling_read files path) fun _ => rfl
  · intro importer written
    apply Concord.related _ fun _ => rfl
    exact fun cache h => ⟨cache, h, rfl⟩

theorem recalling_converts :
    (Likeness.same Value).Converts (recalling files).relator toFinite toFinite :=
  fun _ _ => (recalling files).relator.pure rfl

theorem recalls_evaluateAll (file : String) :
    Recalls files (load files.cached limit file >>= evaluateAll toFinite params)
      (load files limit file >>= evaluateAll toFinite params) := by
  have hload := (recalling_served files).load (loadsAlike_same (τ := Value)) limit file
  have hall := (recalling files).relator.failing.bind hload fun _ _ h =>
    Likeness.evaluateAll (recalling_converts files) params h
  apply Concord.of_related (c := recalling files) hall
  intro _ _ h
  cases h with
  | ok h => rw [Likeness.eq_of_forall₂_same h]
  | error failure => rfl

theorem recalls_evaluateFile (file : String) :
    Recalls files (evaluateFile files.cached limit params file)
      (evaluateFile files limit params file) := by
  refine Recalls.bind (Recalls.aroundFailure _ ?_) fun modules => ?_
  · exact recalls_evaluateAll files limit params file
  · exact Concord.mapM (fun module => Recalls.aroundFailure _ (Recalls.ofExcept _)) modules

theorem recalls_evaluateFiles (paths : List String) :
    Recalls files (evaluateFiles files.cached limit params paths)
      (evaluateFiles files limit params paths) := by
  induction paths with
  | nil => exact Recalls.pure []
  | cons file rest ih =>
    exact Recalls.bind (recalls_evaluateFile files limit params file) fun resources =>
      Recalls.bind ih fun others => Recalls.pure (resources ++ others)

/-! ## Files one after the other -/

theorem evaluateFiles_append {m : Type → Type} [Monad m] [LawfulMonad m] (source : Source m)
    (first second : List String) :
    evaluateFiles source limit params (first ++ second) = do
      let resources ← evaluateFiles source limit params first
      return resources ++ (← evaluateFiles source limit params second) := by
  induction first with
  | nil => simp [evaluateFiles]
  | cons file rest ih =>
    simp only [evaluateFiles, ih, List.cons_append, bind_assoc, pure_bind, List.append_assoc]

theorem mapM_ne_nil {f : α → ExceptT ε Id β} {l : List α} {bs : List β} (hl : l ≠ [])
    (h : (l.mapM f).run.run = .ok bs) : bs ≠ [] := by
  obtain ⟨a, rest, rfl⟩ := List.exists_cons_of_ne_nil hl
  simp only [List.mapM_cons, run_bind_eq, bind_eq_ok] at h
  obtain ⟨b, -, others, -, h⟩ := h
  cases h
  exact List.cons_ne_nil b others

theorem evaluateAll_ne_nil {modules left : List (Module Value)} (hmodules : modules ≠ [])
    (h : (evaluateAll (m := Id) toFinite params modules).run.run = .ok left) : left ≠ [] := by
  obtain ⟨module, rest, rfl⟩ := List.exists_cons_of_ne_nil hmodules
  simp only [evaluateAll, run_bind_eq, bind_eq_ok] at h
  obtain ⟨⟨result, module⟩, -, -, -, others, -, h⟩ := h
  cases h
  exact List.cons_ne_nil module others

theorem run_aroundFailure_eq_ok {context : String} {x : ExceptT Failure Id α} {a : α} :
    (Trouble.aroundFailure context x).run.run = .ok a ↔ x.run.run = .ok a := by
  change Except.mapError _ (Except.mapError _ x.run.run) = .ok a ↔ _
  cases x.run.run <;> simp [Except.mapError]

variable {files limit params}

theorem load_ne_nil {file : String} {modules : List (Module Value)}
    (h : (load files limit file).run.run = .ok modules) : modules ≠ [] := by
  obtain ⟨first, others, -, hsections⟩ := value_load_eq_ok.1 h
  exact mapM_ne_nil (List.cons_ne_nil first others) hsections

/-- A file is evaluated to at least one resource. -/
theorem evaluateFile_ne_nil {file : String} {resources : List Value}
    (h : (evaluateFile files limit params file).run.run = .ok resources) : resources ≠ [] := by
  rw [evaluateFile, run_bind_eq, bind_eq_ok] at h
  obtain ⟨evaluated, hevaluated, hresources⟩ := h
  rw [run_aroundFailure_eq_ok, run_bind_eq, bind_eq_ok] at hevaluated
  obtain ⟨modules, hload, hevaluated⟩ := hevaluated
  exact mapM_ne_nil (evaluateAll_ne_nil _ (load_ne_nil hload) hevaluated) hresources

def resourcesOf (files : FileSystem Id) (configuration : Configuration)
    (params : List (String × Value)) (paths : List String) : Except Trouble (List Value) :=
  (configuration.withCache (evaluateFiles files.source.cached configuration.maxImportDepth
    (Table.ofPairs params) paths)).run.run

section

variable {files : FileSystem Id} {configuration : Configuration} {params : List (String × Value)}
  {output : Option OutputFormat} {paths : List String} {resources : List Value}

/-- The first cache of a run is empty, if there is one. -/
theorem run_withCache {files : Source Id} {x : ExceptT ε (StateT (Option Cache) Id) α}
    {y : ExceptT ε Id α} (h : Recalls files x y) (configuration : Configuration) :
    (configuration.withCache x).run.run = y.run.run := by
  have hfirst : Faithful files configuration.firstCache := by
    rw [Configuration.firstCache]
    split
    · intro path sections hfound
      simp [Cache.empty] at hfound
    · trivial
  obtain ⟨cache', -, hrun⟩ := h configuration.firstCache hfirst
  exact congrArg Prod.fst hrun

theorem resourcesOf_eq : resourcesOf files configuration params paths =
    (evaluateFiles files.source configuration.maxImportDepth (Table.ofPairs params)
      paths).run.run :=
  run_withCache (recalls_evaluateFiles _ _ _ _) configuration

theorem run_evaluationText : (evaluationText files configuration params output paths).run.run =
    (resourcesOf files configuration params paths).map
      (resourcesText (output.getD configuration.output)) := by
  have hrecalls := recalls_evaluateFiles files.source configuration.maxImportDepth
    (Table.ofPairs params) paths
  rw [evaluationText, run_withCache (hrecalls.bind fun resources => .pure _), run_bind_eq,
    resourcesOf_eq]
  rfl

theorem resourcesOf_append (first second : List String) :
    resourcesOf files configuration params (first ++ second) = do
      let resources ← resourcesOf files configuration params first
      return resources ++ (← resourcesOf files configuration params second) := by
  simp only [resourcesOf_eq, evaluateFiles_append, run_bind_eq]
  rfl

theorem resourcesOf_cons {file : String} {rest : List String} :
    resourcesOf files configuration params (file :: rest) = do
      let resources ← resourcesOf files configuration params [file]
      return resources ++ (← resourcesOf files configuration params rest) :=
  resourcesOf_append [file] rest

theorem resourcesOf_ne_nil (hpaths : paths ≠ [])
    (h : resourcesOf files configuration params paths = .ok resources) : resources ≠ [] := by
  obtain ⟨file, rest, rfl⟩ := List.exists_cons_of_ne_nil hpaths
  simp only [resourcesOf_eq, evaluateFiles, run_bind_eq, bind_eq_ok] at h
  obtain ⟨own, hown, others, -, h⟩ := h
  cases h
  exact List.append_ne_nil_of_left_ne_nil (evaluateFile_ne_nil hown) others

/-- The first file that cannot be evaluated decides about the trouble. -/
theorem resourcesOf_eq_error {trouble : Trouble} :
    resourcesOf files configuration params paths = .error trouble ↔
      ∃ before file after, paths = before ++ file :: after ∧
        (∀ other ∈ before, ∃ own, resourcesOf files configuration params [other] = .ok own) ∧
        resourcesOf files configuration params [file] = .error trouble := by
  induction paths with
  | nil => simp [resourcesOf_eq, evaluateFiles]
  | cons file rest ih =>
    rw [exists_first_cons
      (P := fun other => ∃ own, resourcesOf files configuration params [other] = .ok own)
      (Q := fun _ file => resourcesOf files configuration params [file] = .error trouble),
      ← ih, resourcesOf_cons]
    simp [bind_eq_error, pure, Except.pure]

/-- If all files can be evaluated together, then each of them can be alone. -/
theorem exists_resourcesOf_of_mem (h : resourcesOf files configuration params paths = .ok resources)
    {file : String} (hfile : file ∈ paths) :
    ∃ own, resourcesOf files configuration params [file] = .ok own := by
  obtain ⟨before, after, rfl⟩ := List.append_of_mem hfile
  rw [resourcesOf_append, bind_eq_ok] at h
  obtain ⟨_, -, h⟩ := h
  rw [bind_eq_ok, resourcesOf_cons] at h
  obtain ⟨_, h, -⟩ := h
  obtain ⟨own, hown, -⟩ := bind_eq_ok.1 h
  exact ⟨own, hown⟩

/-! ## Texts one after the other -/

theorem resourcesText_append {others : List Value} (hresources : resources ≠ [])
    (hothers : others ≠ []) : resourcesText .yaml (resources ++ others) =
      resourcesText .yaml resources ++ "---\n" ++ resourcesText .yaml others := by
  rw [resourcesText, List.map_append]
  refine String.intercalate_append_of_ne_nil ?_ ?_
  · simpa using hresources
  · simpa using hothers

theorem run_evaluationText_eq_ok {text : String} :
    (evaluationText files configuration params output paths).run.run = .ok text ↔
      ∃ resources, resourcesOf files configuration params paths = .ok resources ∧
        resourcesText (output.getD configuration.output) resources = text := by
  rw [run_evaluationText]
  cases resourcesOf files configuration params paths <;> simp [Except.map]

theorem run_evaluationText_eq_error {trouble : Trouble} :
    (evaluationText files configuration params output paths).run.run = .error trouble ↔
      resourcesOf files configuration params paths = .error trouble := by
  rw [run_evaluationText]
  cases resourcesOf files configuration params paths <;> simp [Except.map]

theorem run_evaluationText_append {first second : List String} {own others : List Value}
    (hown : resourcesOf files configuration params first = .ok own)
    (hothers : resourcesOf files configuration params second = .ok others) :
    (evaluationText files configuration params output (first ++ second)).run.run =
      .ok (resourcesText (output.getD configuration.output) (own ++ others)) := by
  refine run_evaluationText_eq_ok.2 ⟨own ++ others, ?_, rfl⟩
  rw [resourcesOf_append, hown, hothers]
  rfl

/-- The first file with trouble decides, if there is any. -/
theorem exists_first_trouble {file : String} (hfile : file ∈ paths) {trouble : Trouble}
    (hfailed : resourcesOf files configuration params [file] = .error trouble) :
    ∃ before file after trouble, paths = before ++ file :: after ∧
      (∀ other ∈ before, ∃ own, resourcesOf files configuration params [other] = .ok own) ∧
      resourcesOf files configuration params [file] = .error trouble ∧
      resourcesOf files configuration params paths = .error trouble := by
  cases hall : resourcesOf files configuration params paths with
  | ok resources =>
    obtain ⟨own, hown⟩ := exists_resourcesOf_of_mem hall hfile
    cases hown.symm.trans hfailed
  | error trouble =>
    obtain ⟨before, file, after, hsplit, hbefore, hfile⟩ := resourcesOf_eq_error.1 hall
    exact ⟨before, file, after, trouble, hsplit, hbefore, hfile, rfl⟩

end

/-- Evaluation is compositional in its files. Two lists of files that can be evaluated can be
evaluated together; the YAML documents of the first come before those of the second, and the JSON
list has the resources of both. If some file cannot be evaluated alone, then the first such file
decides about the trouble, as if there were no others. -/
theorem evaluationText_append (files : FileSystem Id) (configuration : Configuration)
    (params : List (String × Value)) (output : Option OutputFormat) (first second : List String) :
    let text := fun paths => (evaluationText files configuration params output paths).run.run
    let format := output.getD configuration.output
    (∀ a b, first ≠ [] → second ≠ [] → text first = .ok a → text second = .ok b →
      (format = .yaml → text (first ++ second) = .ok (a ++ "---\n" ++ b)) ∧
      (format = .json → ∃ own others,
        resourcesOf files configuration params first = .ok own ∧
        resourcesOf files configuration params second = .ok others ∧
        a = (Value.list own).indentedJson "" ++ "\n" ∧
        b = (Value.list others).indentedJson "" ++ "\n" ∧
        text (first ++ second) = .ok ((Value.list (own ++ others)).indentedJson "" ++ "\n"))) ∧
    ((∃ file ∈ first ++ second, ∃ trouble, text [file] = .error trouble) →
      ∃ before file after trouble, first ++ second = before ++ file :: after ∧
        (∀ other ∈ before, ∃ own, text [other] = .ok own) ∧ text [file] = .error trouble ∧
        text (first ++ second) = .error trouble) := by
  intro text format
  constructor
  · intro a b hfirst hsecond ha hb
    obtain ⟨own, hown, (rfl : resourcesText format own = a)⟩ := run_evaluationText_eq_ok.1 ha
    obtain ⟨others, hothers, (rfl : resourcesText format others = b)⟩ :=
      run_evaluationText_eq_ok.1 hb
    have htext : text (first ++ second) = .ok (resourcesText format (own ++ others)) :=
      run_evaluationText_append hown hothers
    rw [htext]
    refine ⟨fun hyaml => ?_, fun hjson => ⟨own, others, hown, hothers, ?_⟩⟩
    · rw [hyaml, resourcesText_append (resourcesOf_ne_nil hfirst hown)
        (resourcesOf_ne_nil hsecond hothers)]
    · rw [hjson]
      exact ⟨rfl, rfl, rfl⟩
  · rintro ⟨file, hfile, trouble, hfailed⟩
    obtain ⟨before, file, after, trouble, hsplit, hbefore, hfailed, hall⟩ :=
      exists_first_trouble hfile (run_evaluationText_eq_error.1 hfailed)
    refine ⟨before, file, after, trouble, hsplit, fun other hother => ?_,
      run_evaluationText_eq_error.2 hfailed, run_evaluationText_eq_error.2 hall⟩
    obtain ⟨own, hown⟩ := hbefore other hother
    exact ⟨_, run_evaluationText_eq_ok.2 ⟨own, hown, rfl⟩⟩

end ManifestModules.CommandLine
