import ManifestModules.Proofs.Module.Loaded
import Mathlib.Data.List.Nodup

/-!
# Loading with a stack

Instead of handing a chain of importers down, loading can keep one stack: a target is pushed before
its section is loaded and popped afterwards, whether that fails or not. The rules of such runs bound
nothing but the length of the stack. Yet every call has a finite run, whatever the source answers:
it leaves the stack as it found it, so that the rules and `loadTarget` agree.
-/

namespace ManifestModules.Module

variable {C ρ τ : Type}

/-- An import target that is going to be read, and the stack of the paths being loaded. -/
structure Reading where
  stack : List String
  target : String

structure Reading.Sound (limit : Nat) (reading : Reading) : Prop where
  nodup : reading.stack.Nodup
  fresh : reading.target ∉ reading.stack
  bounded : reading.stack.length ≤ limit

section

variable (source : Source (StateT C (StateM ρ))) (limit : Nat)

mutual

/-- A run of loading an import target, from a stack to a stack and with the readings on the way. -/
inductive TargetRuns : List String → String → C → ρ → Trace C ρ (Imported τ) → List String →
    List Reading → Prop
  | cycle {stack : List String} {path : String} {c : C} {s : ρ} (again : path ∈ stack) :
    TargetRuns stack path c s
      ⟨.error (.cyclicImport (chainText (stack.dropWhile (· ≠ path) ++ [path]))), c, s⟩ stack []
  | tooDeep {stack : List String} {path : String} {c : C} {s : ρ} (fresh : path ∉ stack)
    (deep : limit < stack.length) :
    TargetRuns stack path c s ⟨.error (.importDepthExceeded path limit), c, s⟩ stack []
  | unreadable {stack : List String} {path : String} {c c' : C} {s s' : ρ} {e : Failure}
    (fresh : path ∉ stack) (shallow : stack.length ≤ limit)
    (read : exec (source.readSections path) c s = ⟨.error e, c', s'⟩) :
    TargetRuns stack path c s ⟨.error e, c', s'⟩ stack [⟨stack, path⟩]
  | empty {stack : List String} {path : String} {c c' : C} {s s' : ρ}
    (fresh : path ∉ stack) (shallow : stack.length ≤ limit)
    (read : exec (source.readSections path) c s = ⟨.ok [], c', s'⟩) :
    TargetRuns stack path c s ⟨.error (.emptyDocument path), c', s'⟩ stack [⟨stack, path⟩]
  | loaded {stack left : List String} {path : String} {c c' c'' : C} {s s' s'' : ρ}
    {first : Entries} {others : List Entries} {r : Except Failure (Module τ)}
    {readings : List Reading} (fresh : path ∉ stack) (shallow : stack.length ≤ limit)
    (read : exec (source.readSections path) c s = ⟨.ok (first :: others), c', s'⟩)
    (runs : SectionRuns (stack ++ [path]) path first c' s' ⟨r, c'', s''⟩ left readings) :
    TargetRuns stack path c s
      ⟨r.map fun module => (module, extraSections? path (others.length + 1)), c'', s''⟩
      left.dropLast (⟨stack, path⟩ :: readings)

inductive SectionRuns : List String → String → Entries → C → ρ → Trace C ρ (Module τ) →
    List String → List Reading → Prop
  | malformed {stack : List String} {path : String} {entries : Entries} {c : C} {s : ρ}
    {e : Failure} (shape : Section.ofEntries path entries = .error e) :
    SectionRuns stack path entries c s ⟨.error e, c, s⟩ stack []
  | formed {stack left : List String} {path : String} {entries : Entries} {c c' : C} {s s' : ρ}
    {found : Section} {r : Except Failure (List (Import (Module τ)) × List String)}
    {readings : List Reading} (shape : Section.ofEntries path entries = .ok found)
    (runs : ImportsRun stack path found.imports c s ⟨r, c', s'⟩ left readings) :
    SectionRuns stack path entries c s
      ⟨r.map fun (imports, diagnostics) =>
        ⟨path, imports, found.params, false, ⟨found.resource, none⟩, diagnostics⟩, c', s'⟩
      left readings

inductive ImportsRun : List String → String → List ImportDeclaration → C → ρ →
    Trace C ρ (List (Import (Module τ)) × List String) → List String → List Reading → Prop
  | nil {stack : List String} {path : String} {c : C} {s : ρ} :
    ImportsRun stack path [] c s ⟨.ok ([], []), c, s⟩ stack []
  | unresolved {stack : List String} {path : String} {declaration : ImportDeclaration}
    {rest : List ImportDeclaration} {c c' : C} {s s' : ρ} {e : Failure}
    (resolve : exec (source.resolvePath path declaration.path) c s = ⟨.error e, c', s'⟩) :
    ImportsRun stack path (declaration :: rest) c s ⟨.error e, c', s'⟩ stack []
  | failed {stack left : List String} {path target : String} {declaration : ImportDeclaration}
    {rest : List ImportDeclaration} {c c' c'' : C} {s s' s'' : ρ} {e : Failure}
    {readings : List Reading}
    (resolve : exec (source.resolvePath path declaration.path) c s = ⟨.ok target, c', s'⟩)
    (runs : TargetRuns stack target c' s' ⟨.error e, c'', s''⟩ left readings) :
    ImportsRun stack path (declaration :: rest) c s ⟨.error e, c'', s''⟩ left readings
  | loaded {stack left left' : List String} {path target : String}
    {declaration : ImportDeclaration} {rest : List ImportDeclaration} {c c₁ c₂ c₃ : C}
    {s s₁ s₂ s₃ : ρ} {imported : Imported τ}
    {r : Except Failure (List (Import (Module τ)) × List String)} {readings more : List Reading}
    (resolve : exec (source.resolvePath path declaration.path) c s = ⟨.ok target, c₁, s₁⟩)
    (runs : TargetRuns stack target c₁ s₁ ⟨.ok imported, c₂, s₂⟩ left readings)
    (others : ImportsRun left path rest c₂ s₂ ⟨r, c₃, s₃⟩ left' more) :
    ImportsRun stack path (declaration :: rest) c s
      ⟨r.map fun (imports, remarks) =>
        (⟨declaration.name, target, declaration.params, .unevaluated, imported.1⟩ :: imports,
          imported.2.toList ++ remarks), c₃, s₃⟩ left' (readings ++ more)

end

/-- A run of loading the sections of a file in order, all of them with the same stack. -/
inductive SectionsRun : List String → String → List Entries → C → ρ → Trace C ρ (List (Module τ)) →
    List String → List Reading → Prop
  | nil {stack : List String} {path : String} {c : C} {s : ρ} :
    SectionsRun stack path [] c s ⟨.ok [], c, s⟩ stack []
  | failed {stack left : List String} {path : String} {entries : Entries} {rest : List Entries}
    {c c' : C} {s s' : ρ} {e : Failure} {readings : List Reading}
    (runs : SectionRuns source limit stack path entries c s
      (⟨.error e, c', s'⟩ : Trace C ρ (Module τ)) left readings) :
    SectionsRun stack path (entries :: rest) c s ⟨.error e, c', s'⟩ left readings
  | loaded {stack left left' : List String} {path : String} {entries : Entries}
    {rest : List Entries} {c c' c'' : C} {s s' s'' : ρ} {module : Module τ}
    {r : Except Failure (List (Module τ))} {readings more : List Reading}
    (runs : SectionRuns source limit stack path entries c s ⟨.ok module, c', s'⟩ left readings)
    (others : SectionsRun left path rest c' s' ⟨r, c'', s''⟩ left' more) :
    SectionsRun stack path (entries :: rest) c s ⟨r.map fun modules => module :: modules, c'', s''⟩
      left' (readings ++ more)

inductive LoadRuns : String → C → ρ → Trace C ρ (List (Module τ)) → List Reading → Prop
  | unreadable {path : String} {c c' : C} {s s' : ρ} {e : Failure}
    (read : exec (source.readSections (normalizePath path)) c s = ⟨.error e, c', s'⟩) :
    LoadRuns path c s ⟨.error e, c', s'⟩ []
  | empty {path : String} {c c' : C} {s s' : ρ}
    (read : exec (source.readSections (normalizePath path)) c s = ⟨.ok [], c', s'⟩) :
    LoadRuns path c s ⟨.error (.emptyDocument (normalizePath path)), c', s'⟩ []
  | loaded {path : String} {c c' : C} {s s' : ρ} {first : Entries} {others : List Entries}
    {trace : Trace C ρ (List (Module τ))} {left : List String} {readings : List Reading}
    (read : exec (source.readSections (normalizePath path)) c s = ⟨.ok (first :: others), c', s'⟩)
    (runs : SectionsRun source limit [normalizePath path] (normalizePath path) (first :: others)
      c' s' trace left readings) : LoadRuns path c s trace readings

inductive LoadImportRuns : String → C → ρ → Trace C ρ (Module τ) → List Reading → Prop
  | intro {path : String} {c c' : C} {s s' : ρ} {r : Except Failure (Imported τ)}
    {left : List String} {readings : List Reading}
    (runs : TargetRuns source limit [] (normalizePath path) c s ⟨r, c', s'⟩ left readings) :
    LoadImportRuns path c s
      ⟨r.map fun (module, remark) =>
        { module with diagnostics := module.diagnostics ++ remark.toList }, c', s'⟩ readings

end

section

variable {α β : Type} {x : Effect C ρ α} {c c' : C} {s s' : ρ}

theorem exec_bind_pure {r : Except Failure α} (f : α → β) (h : exec x c s = ⟨r, c', s'⟩) :
    exec (x >>= fun a => pure (f a)) c s = ⟨r.map f, c', s'⟩ := by
  cases r with
  | ok a => rw [exec_bind_ok h, exec_pure, Except.map]
  | error e => rw [exec_bind_error h, Except.map]

end

section

variable (source : Source (StateT C (StateM ρ))) (limit : Nat)

def loadOn (stack : List String) (path : String) : Effect C ρ (Imported τ) :=
  loadTarget source limit (limit + 1 - stack.length) stack path

end

section

variable {source : Source (StateT C (StateM ρ))} {limit : Nat} {stack left : List String}
  {path target : String} {entries first : Entries} {others : List Entries} {c c' c'' : C}
  {s s' s'' : ρ} {e : Failure}

theorem exec_loadOn_cycle (h : path ∈ stack) :
    exec (loadOn source limit stack path : Effect C ρ (Imported τ)) c s =
      ⟨.error (.cyclicImport (chainText (stack.dropWhile (· ≠ path) ++ [path]))), c, s⟩ := by
  rw [loadOn, loadTarget_again (if_pos h), exec_throw]

theorem exec_loadOn_tooDeep (h : path ∉ stack) (hdeep : limit < stack.length) :
    exec (loadOn source limit stack path : Effect C ρ (Imported τ)) c s =
      ⟨.error (.importDepthExceeded path limit), c, s⟩ := by
  have hroom : limit + 1 - stack.length = 0 := by omega
  rw [loadOn, hroom, loadTarget_noRoom (if_neg h), exec_throw]

/-- What is read decides how loading goes on. -/
theorem exec_loadOn (h : path ∉ stack) (hshallow : stack.length ≤ limit) :
    exec (loadOn source limit stack path : Effect C ρ (Imported τ)) c s =
      exec (do
        match ← source.readSections path with
        | [] => throw (.emptyDocument path)
        | first :: others =>
          let module ← loadSection source path (loadOn source limit (stack ++ [path])) first
          return (module, extraSections? path (others.length + 1))) c s := by
  have hroom : limit + 1 - stack.length = limit - stack.length + 1 := by omega
  have hnext : limit + 1 - (stack ++ [path]).length = limit - stack.length := by
    rw [List.length_append, List.length_singleton]
    omega
  have hload : loadOn source limit (stack ++ [path]) =
      (loadTarget source limit (limit - stack.length) (stack ++ [path]) :
        String → Effect C ρ (Imported τ)) := by
    funext target
    rw [loadOn, hnext]
  rewrite [loadOn, hroom, loadTarget_room (if_neg h), hload]
  rfl

theorem exec_loadOn_unreadable (h : path ∉ stack) (hshallow : stack.length ≤ limit)
    (hread : exec (source.readSections path) c s = ⟨.error e, c', s'⟩) :
    exec (loadOn source limit stack path : Effect C ρ (Imported τ)) c s = ⟨.error e, c', s'⟩ := by
  rw [exec_loadOn h hshallow, exec_bind_error hread]

theorem exec_loadOn_empty (h : path ∉ stack) (hshallow : stack.length ≤ limit)
    (hread : exec (source.readSections path) c s = ⟨.ok [], c', s'⟩) :
    exec (loadOn source limit stack path : Effect C ρ (Imported τ)) c s =
      ⟨.error (.emptyDocument path), c', s'⟩ := by
  rw [exec_loadOn h hshallow, exec_bind_ok hread, exec_throw]

theorem exec_loadOn_read {r : Except Failure (Module τ)} (h : path ∉ stack)
    (hshallow : stack.length ≤ limit)
    (hread : exec (source.readSections path) c s = ⟨.ok (first :: others), c', s'⟩)
    (hsection : exec (loadSection source path (loadOn source limit (stack ++ [path])) first) c' s' =
      ⟨r, c'', s''⟩) :
    exec (loadOn source limit stack path) c s =
      ⟨r.map fun module => (module, extraSections? path (others.length + 1)), c'', s''⟩ := by
  rw [exec_loadOn h hshallow, exec_bind_ok hread]
  exact exec_bind_pure _ hsection

variable {load : String → Effect C ρ (Imported τ)}

theorem exec_loadSection_malformed (h : Section.ofEntries path entries = .error e) :
    exec (loadSection source path load entries) c s = ⟨.error e, c, s⟩ := by
  rw [loadSection, h]
  rfl

theorem exec_loadSection_formed {found : Section}
    {r : Except Failure (List (Import (Module τ)) × List String)}
    (h : Section.ofEntries path entries = .ok found)
    (himports : exec (loadImports source path load found.imports) c s = ⟨r, c', s'⟩) :
    exec (loadSection source path load entries) c s =
      ⟨r.map fun (imports, diagnostics) =>
        ⟨path, imports, found.params, false, ⟨found.resource, none⟩, diagnostics⟩, c', s'⟩ := by
  rw [loadSection, h]
  exact exec_bind_pure _ himports

variable {declaration : ImportDeclaration} {rest : List ImportDeclaration}

theorem exec_loadImports_unresolved
    (h : exec (source.resolvePath path declaration.path) c s = ⟨.error e, c', s'⟩) :
    exec (loadImports source path load (declaration :: rest)) c s = ⟨.error e, c', s'⟩ := by
  rw [loadImports, exec_bind_error h]

theorem exec_loadImports_failed
    (h : exec (source.resolvePath path declaration.path) c s = ⟨.ok target, c', s'⟩)
    (hload : exec (load target) c' s' = ⟨.error e, c'', s''⟩) :
    exec (loadImports source path load (declaration :: rest)) c s = ⟨.error e, c'', s''⟩ := by
  rw [loadImports, exec_bind_ok h, exec_bind_error hload]

theorem exec_loadImports_loaded {imported : Imported τ}
    {r : Except Failure (List (Import (Module τ)) × List String)} {c₃ : C} {s₃ : ρ}
    (h : exec (source.resolvePath path declaration.path) c s = ⟨.ok target, c', s'⟩)
    (hload : exec (load target) c' s' = ⟨.ok imported, c'', s''⟩)
    (hrest : exec (loadImports source path load rest) c'' s'' = ⟨r, c₃, s₃⟩) :
    exec (loadImports source path load (declaration :: rest)) c s =
      ⟨r.map fun (imports, remarks) =>
        (⟨declaration.name, target, declaration.params, .unevaluated, imported.1⟩ :: imports,
          imported.2.toList ++ remarks), c₃, s₃⟩ := by
  rw [loadImports, exec_bind_ok h, exec_bind_ok hload]
  exact exec_bind_pure _ hrest

end

section

variable {source : Source (StateT C (StateM ρ))} {limit : Nat}

/-- What a run shows: the stack is as it was, the result is the one of `loadTarget`, and no reading
was made with a wrong stack. -/
structure Stacked {α : Type} (limit : Nat) (stack : List String) (left : List String)
    (readings : List Reading) (trace expected : Trace C ρ α) : Prop where
  restored : left = stack
  agrees : trace = expected
  readings : stack.Nodup → ∀ reading ∈ readings, reading.Sound limit

mutual

theorem TargetRuns.stacked {stack left : List String} {path : String} {c : C} {s : ρ}
    {trace : Trace C ρ (Imported τ)} {readings : List Reading} :
    TargetRuns source limit stack path c s trace left readings →
    Stacked limit stack left readings trace (exec (loadOn source limit stack path) c s)
  | .cycle again => ⟨rfl, (exec_loadOn_cycle again).symm, by simp⟩
  | .tooDeep fresh deep => ⟨rfl, (exec_loadOn_tooDeep fresh deep).symm, by simp⟩
  | .unreadable fresh shallow read => by
    refine ⟨rfl, (exec_loadOn_unreadable fresh shallow read).symm, fun hnodup => ?_⟩
    exact List.forall_mem_singleton.2 ⟨hnodup, fresh, shallow⟩
  | .empty fresh shallow read => by
    refine ⟨rfl, (exec_loadOn_empty fresh shallow read).symm, fun hnodup => ?_⟩
    exact List.forall_mem_singleton.2 ⟨hnodup, fresh, shallow⟩
  | .loaded fresh shallow read runs => by
    obtain ⟨hrestored, hagrees, hreadings⟩ := runs.stacked
    refine ⟨?_, (exec_loadOn_read fresh shallow read hagrees.symm).symm, ?_⟩
    · rw [hrestored, List.dropLast_concat]
    · intro hnodup
      refine List.forall_mem_cons.2 ⟨⟨hnodup, fresh, shallow⟩, hreadings ?_⟩
      rw [← List.concat_eq_append]
      exact hnodup.concat fresh

theorem SectionRuns.stacked {stack left : List String} {path : String} {entries : Entries} {c : C}
    {s : ρ} {trace : Trace C ρ (Module τ)} {readings : List Reading} :
    SectionRuns source limit stack path entries c s trace left readings →
    Stacked limit stack left readings trace
      (exec (loadSection source path (loadOn source limit stack) entries) c s)
  | .malformed shape => ⟨rfl, (exec_loadSection_malformed shape).symm, by simp⟩
  | .formed shape runs => by
    obtain ⟨hrestored, hagrees, hreadings⟩ := runs.stacked
    exact ⟨hrestored, (exec_loadSection_formed shape hagrees.symm).symm, hreadings⟩

theorem ImportsRun.stacked {stack left : List String} {path : String}
    {declarations : List ImportDeclaration} {c : C} {s : ρ}
    {trace : Trace C ρ (List (Import (Module τ)) × List String)} {readings : List Reading} :
    ImportsRun source limit stack path declarations c s trace left readings →
    Stacked limit stack left readings trace
      (exec (loadImports source path (loadOn source limit stack) declarations) c s)
  | .nil => ⟨rfl, rfl, by simp⟩
  | .unresolved resolve => ⟨rfl, (exec_loadImports_unresolved resolve).symm, by simp⟩
  | .failed resolve runs => by
    obtain ⟨hrestored, hagrees, hreadings⟩ := runs.stacked
    exact ⟨hrestored, (exec_loadImports_failed resolve hagrees.symm).symm, hreadings⟩
  | .loaded resolve runs others => by
    obtain ⟨hrestored, hagrees, hreadings⟩ := runs.stacked
    have hothers := others.stacked
    rw [hrestored] at hothers
    obtain ⟨hrestored', hagrees', hmore⟩ := hothers
    refine ⟨hrestored', (exec_loadImports_loaded resolve hagrees.symm hagrees'.symm).symm, ?_⟩
    intro hnodup reading hreading
    exact (List.mem_append.1 hreading).elim (hreadings hnodup reading) (hmore hnodup reading)

end

theorem SectionsRun.stacked {stack left : List String} {path : String} {sections : List Entries}
    {c : C} {s : ρ} {trace : Trace C ρ (List (Module τ))} {readings : List Reading}
    (h : SectionsRun source limit stack path sections c s trace left readings) :
    Stacked limit stack left readings trace
      (exec (sections.mapM (loadSection source path (loadOn source limit stack))) c s) := by
  induction h with
  | nil => exact ⟨rfl, rfl, by simp⟩
  | failed runs =>
    obtain ⟨hrestored, hagrees, hreadings⟩ := runs.stacked
    refine ⟨hrestored, ?_, hreadings⟩
    rw [List.mapM_cons, exec_bind_error hagrees.symm]
  | loaded runs _ ih =>
    obtain ⟨hrestored, hagrees, hreadings⟩ := runs.stacked
    rw [hrestored] at ih
    obtain ⟨hrestored', hagrees', hmore⟩ := ih
    refine ⟨hrestored', ?_, ?_⟩
    · rw [List.mapM_cons, exec_bind_ok hagrees.symm]
      exact (exec_bind_pure _ hagrees'.symm).symm
    · intro hnodup reading hreading
      exact (List.mem_append.1 hreading).elim (hreadings hnodup reading) (hmore hnodup reading)

variable {stack : List String} {path : String}

theorem exists_importsRun
    (htarget : ∀ target c s, ∃ readings, TargetRuns (τ := τ) source limit stack target c s
      (exec (loadOn source limit stack target) c s) stack readings)
    (declarations : List ImportDeclaration) (c : C) (s : ρ) : ∃ readings,
    ImportsRun (τ := τ) source limit stack path declarations c s
      (exec (loadImports source path (loadOn source limit stack) declarations) c s) stack
      readings := by
  induction declarations generalizing c s with
  | nil => exact ⟨[], .nil⟩
  | cons declaration rest ih =>
    rcases hresolve : exec (source.resolvePath path declaration.path) c s with ⟨r, c₁, s₁⟩
    cases r with
    | error e =>
      rw [exec_loadImports_unresolved hresolve]
      exact ⟨[], .unresolved hresolve⟩
    | ok target =>
      obtain ⟨readings, hruns⟩ := htarget target c₁ s₁
      rcases hload : exec (loadOn source limit stack target : Effect C ρ (Imported τ)) c₁ s₁
        with ⟨r, c₂, s₂⟩
      rw [hload] at hruns
      cases r with
      | error e =>
        rw [exec_loadImports_failed hresolve hload]
        exact ⟨readings, .failed hresolve hruns⟩
      | ok imported =>
        obtain ⟨more, hothers⟩ := ih c₂ s₂
        rw [exec_loadImports_loaded hresolve hload rfl]
        exact ⟨readings ++ more, .loaded hresolve hruns hothers⟩

theorem exists_sectionRuns
    (htarget : ∀ target c s, ∃ readings, TargetRuns (τ := τ) source limit stack target c s
      (exec (loadOn source limit stack target) c s) stack readings)
    (entries : Entries) (c : C) (s : ρ) : ∃ readings,
    SectionRuns (τ := τ) source limit stack path entries c s
      (exec (loadSection source path (loadOn source limit stack) entries) c s) stack readings := by
  cases hshape : Section.ofEntries path entries with
  | error e =>
    rw [exec_loadSection_malformed hshape]
    exact ⟨[], .malformed hshape⟩
  | ok found =>
    obtain ⟨readings, hruns⟩ := exists_importsRun htarget found.imports c s
    rw [exec_loadSection_formed hshape rfl]
    exact ⟨readings, .formed hshape hruns⟩

/-- Every target has a run: the stack grows with each call, and not beyond the limit. -/
theorem exists_targetRuns (stack : List String) (path : String) (c : C) (s : ρ) : ∃ readings,
    TargetRuns source limit stack path c s
      (exec (loadOn source limit stack path : Effect C ρ (Imported τ)) c s) stack readings := by
  induction hroom : limit + 1 - stack.length generalizing stack path c s with
  | zero =>
    by_cases hagain : path ∈ stack
    · rw [exec_loadOn_cycle hagain]
      exact ⟨[], .cycle hagain⟩
    · have hdeep : limit < stack.length := by omega
      rw [exec_loadOn_tooDeep hagain hdeep]
      exact ⟨[], .tooDeep hagain hdeep⟩
  | succ room ih =>
    by_cases hagain : path ∈ stack
    · rw [exec_loadOn_cycle hagain]
      exact ⟨[], .cycle hagain⟩
    have hshallow : stack.length ≤ limit := by omega
    rcases hread : exec (source.readSections path) c s with ⟨r, c', s'⟩
    rcases r with e | ⟨_ | ⟨first, others⟩⟩
    · rw [exec_loadOn_unreadable hagain hshallow hread]
      exact ⟨_, .unreadable hagain hshallow hread⟩
    · rw [exec_loadOn_empty hagain hshallow hread]
      exact ⟨_, .empty hagain hshallow hread⟩
    · have hpushed : limit + 1 - (stack ++ [path]).length = room := by
        rw [List.length_append, List.length_singleton]
        omega
      obtain ⟨readings, hruns⟩ := exists_sectionRuns (τ := τ)
        (fun target c s => ih (stack ++ [path]) target c s hpushed) first c' s'
      have hloaded := TargetRuns.loaded hagain hshallow hread hruns
      rw [List.dropLast_concat] at hloaded
      rw [exec_loadOn_read hagain hshallow hread rfl]
      exact ⟨_, hloaded⟩

theorem exists_sectionsRun (sections : List Entries) (c : C) (s : ρ) : ∃ readings,
    SectionsRun source limit stack path sections c s (exec (sections.mapM
      (loadSection source path (loadOn source limit stack) : Entries → Effect C ρ (Module τ))) c s)
      stack readings := by
  induction sections generalizing c s with
  | nil => exact ⟨[], .nil⟩
  | cons entries rest ih =>
    obtain ⟨readings, hruns⟩ := exists_sectionRuns (τ := τ) (exists_targetRuns stack) entries c s
    rcases hload : exec (loadSection source path (loadOn source limit stack) entries) c s
      with ⟨r, c', s'⟩
    rw [hload] at hruns
    rw [List.mapM_cons]
    cases r with
    | error e =>
      rw [exec_bind_error hload]
      exact ⟨readings, .failed hruns⟩
    | ok module =>
      obtain ⟨more, hothers⟩ := ih c' s'
      rw [exec_bind_ok hload, exec_bind_pure _ rfl]
      exact ⟨readings ++ more, .loaded hruns hothers⟩

theorem exec_load_unreadable {c c' : C} {s s' : ρ} {e : Failure}
    (h : exec (source.readSections (normalizePath path)) c s = ⟨.error e, c', s'⟩) :
    exec (load source limit path : Effect C ρ (List (Module τ))) c s = ⟨.error e, c', s'⟩ := by
  rw [load, exec_bind_error h]

theorem exec_load_empty {c c' : C} {s s' : ρ}
    (h : exec (source.readSections (normalizePath path)) c s = ⟨.ok [], c', s'⟩) :
    exec (load source limit path : Effect C ρ (List (Module τ))) c s =
      ⟨.error (.emptyDocument (normalizePath path)), c', s'⟩ := by
  rw [load, exec_bind_ok h, exec_throw]

/-- The sections of a file are loaded on a stack that holds its path. -/
theorem exec_load_read {c c' : C} {s s' : ρ} {first : Entries} {others : List Entries}
    (h : exec (source.readSections (normalizePath path)) c s = ⟨.ok (first :: others), c', s'⟩) :
    exec (load source limit path : Effect C ρ (List (Module τ))) c s =
      exec ((first :: others).mapM (loadSection source (normalizePath path)
        (loadOn source limit [normalizePath path]))) c' s' := by
  rw [load, exec_bind_ok h]
  rfl

theorem LoadRuns.sound {c : C} {s : ρ} {trace : Trace C ρ (List (Module τ))}
    {readings : List Reading} (h : LoadRuns source limit path c s trace readings) :
    trace = exec (load source limit path) c s ∧
      ∀ reading ∈ readings, reading.Sound limit := by
  cases h with
  | unreadable read => exact ⟨(exec_load_unreadable read).symm, by simp⟩
  | empty read => exact ⟨(exec_load_empty read).symm, by simp⟩
  | loaded read runs =>
    have hstacked := runs.stacked
    exact ⟨hstacked.agrees.trans (exec_load_read read).symm,
      hstacked.readings (List.nodup_singleton _)⟩

theorem exists_loadRuns (c : C) (s : ρ) : ∃ readings, LoadRuns (τ := τ) source limit path c s
    (exec (load source limit path) c s) readings := by
  rcases hread : exec (source.readSections (normalizePath path)) c s with ⟨r, c', s'⟩
  rcases r with e | ⟨_ | ⟨first, others⟩⟩
  · rw [exec_load_unreadable hread]
    exact ⟨[], .unreadable hread⟩
  · rw [exec_load_empty hread]
    exact ⟨[], .empty hread⟩
  · obtain ⟨readings, hruns⟩ := exists_sectionsRun (first :: others) c' s'
    rw [exec_load_read hread]
    exact ⟨readings, .loaded hread hruns⟩

theorem LoadImportRuns.sound {c : C} {s : ρ} {trace : Trace C ρ (Module τ)}
    {readings : List Reading} (h : LoadImportRuns source limit path c s trace readings) :
    trace = exec (loadImport source limit path) c s ∧
      ∀ reading ∈ readings, reading.Sound limit := by
  obtain ⟨runs⟩ := h
  have hstacked := runs.stacked
  exact ⟨(exec_bind_pure _ hstacked.agrees.symm).symm, hstacked.readings List.nodup_nil⟩

theorem exists_loadImportRuns (c : C) (s : ρ) : ∃ readings,
    LoadImportRuns (τ := τ) source limit path c s (exec (loadImport source limit path) c s)
      readings := by
  rcases hload : exec (loadOn source limit [] (normalizePath path) : Effect C ρ (Imported τ)) c s
    with ⟨r, c', s'⟩
  have htarget : ∃ readings, TargetRuns source limit [] (normalizePath path) c s
      (exec (loadOn source limit [] (normalizePath path) : Effect C ρ (Imported τ)) c s) []
      readings := exists_targetRuns [] (normalizePath path) c s
  rw [hload] at htarget
  obtain ⟨readings, hruns⟩ := htarget
  have himport : exec (loadImport source limit path) c s =
      ⟨r.map fun (module, remark) =>
        { module with diagnostics := module.diagnostics ++ remark.toList }, c', s'⟩ :=
    exec_bind_pure _ hload
  rw [himport]
  exact ⟨readings, .intro hruns⟩

end

/-- Loading ends whatever the source answers. A file or an import has exactly one run, in which
every reading is made on a stack without repetitions and without the target, and no longer than the
limit. Each call for an import target, on whatever stack, has exactly one run as well, and this
leaves the stack as it was. -/
theorem load_runs (source : Source (StateM ρ)) (limit : Nat) (path : String)
    (cache : Option Cache) (s : ρ) :
    ((∃ readings, LoadRuns (τ := τ) source.cached limit path cache s
        (exec (load source.cached limit path) cache s) readings) ∧
      ∀ trace readings, LoadRuns (τ := τ) source.cached limit path cache s trace readings →
        trace = exec (load source.cached limit path) cache s ∧
          ∀ reading ∈ readings, reading.Sound limit) ∧
    ((∃ readings, LoadImportRuns (τ := τ) source.cached limit path cache s
        (exec (loadImport source.cached limit path) cache s) readings) ∧
      ∀ trace readings, LoadImportRuns (τ := τ) source.cached limit path cache s trace readings →
        trace = exec (loadImport source.cached limit path) cache s ∧
          ∀ reading ∈ readings, reading.Sound limit) ∧
    ∀ stack target, (∃ readings, TargetRuns (τ := τ) source.cached limit stack target cache s
        (exec (loadOn source.cached limit stack target) cache s) stack readings) ∧
      ∀ trace left readings, TargetRuns (τ := τ) source.cached limit stack target cache s trace left
        readings → trace = exec (loadOn source.cached limit stack target) cache s ∧ left = stack :=
  ⟨⟨exists_loadRuns cache s, fun _ _ runs => runs.sound⟩,
    ⟨exists_loadImportRuns cache s, fun _ _ runs => runs.sound⟩, fun stack target =>
      ⟨exists_targetRuns stack target cache s, fun _ _ _ runs =>
        ⟨runs.stacked.agrees, runs.stacked.restored⟩⟩⟩

end ManifestModules.Module
