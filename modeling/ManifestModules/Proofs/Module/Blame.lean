import ManifestModules.Proofs.Module.Answers
import ManifestModules.Proofs.Module.Stack

/-!
# Failures about the chain of importers

A load that fails with a cycle or with imports that are too deep is right: at the moment of the
failure, the chain of importers leads from the file to the import that is blamed. The source may
answer differently each time, so that the moments of a load are followed one after the other.
-/

namespace ManifestModules

/-- The failures that loading finds in the chain of importers. -/
def Failure.blamesImports : Failure → Bool
  | .cyclicImport _ | .importDepthExceeded .. => true
  | _ => false

/-- Neither the reader nor the resolver of paths ever blames imports itself. -/
structure Source.Innocent {ρ : Type} (source : Source (StateM ρ)) : Prop where
  read : ∀ path s trouble e, ((source.read path).run s).1 = .error trouble →
    trouble.failure? = some e → e.blamesImports = false
  resolve : ∀ importer written s trouble e, ((source.resolve importer written).run s).1 =
    .error trouble → trouble.failure? = some e → e.blamesImports = false

theorem Trouble.toFailure_innocent {trouble : Trouble} {wrap : String → Failure}
    (h : ∀ e, trouble.failure? = some e → e.blamesImports = false)
    (hwrap : ∀ text, (wrap text).blamesImports = false) :
    (trouble.toFailure wrap).blamesImports = false := by
  rw [toFailure]
  cases hcause : trouble.failure? with
  | some cause => exact h cause hcause
  | none => exact hwrap trouble.summary

theorem Section.ofEntries_innocent {path : String} {entries : Entries} {e : Failure}
    (h : Section.ofEntries path entries = .error e) : e.blamesImports = false := by
  simp only [ofEntries] at h
  cases himports : readImports (entries.lookup importsKey) with
  | error fault =>
    rw [himports] at h
    cases h
    rfl
  | ok imports =>
    rw [himports] at h
    cases hparams : readParams (entries.lookup paramsKey) with
    | error fault =>
      rw [hparams] at h
      cases h
      rfl
    | ok params =>
      rw [hparams] at h
      change (if _ then _ else _) = _ at h
      split at h
      · cases h
      · cases h
        rfl

namespace Module

variable {C ρ : Type} {τ : Type}

/-- A section on the chain of importers. -/
structure Frame where
  path : String
  entries : Entries

def paths (frames : List Frame) : List String :=
  frames.map Frame.path

structure Loading (C ρ : Type) where
  source : Source (StateT C (StateM ρ))
  limit : Nat
  path : String
  state : C
  world : ρ

def Loading.root (loading : Loading C ρ) : String :=
  normalizePath loading.path

section

variable (τ : Type) (loading : Loading C ρ)

/-- The moments between the sections of the file, with the sections that are left. -/
inductive Opens : List Entries → C → ρ → Prop
  | read {sections : List Entries} {c : C} {s : ρ}
    (read : exec (loading.source.readSections loading.root) loading.state loading.world =
      ⟨.ok sections, c, s⟩) : Opens sections c s
  | next {entries : Entries} {rest : List Entries} {module : Module τ} {c c' : C} {s s' : ρ}
    (opens : Opens (entries :: rest) c s)
    (loaded : exec (loadSection loading.source loading.root
      (loadOn loading.source loading.limit [loading.root]) entries) c s = ⟨.ok module, c', s'⟩) :
    Opens rest c' s'

/-- The moments between the imports of a section that is reached through a chain of importers, with
the imports that are left. -/
inductive Reaches : List Frame → Frame → List ImportDeclaration → C → ρ → Prop
  | root {entries : Entries} {rest : List Entries} {found : Section} {c : C} {s : ρ}
    (opens : Opens τ loading (entries :: rest) c s)
    (shape : Section.ofEntries loading.root entries = .ok found) :
    Reaches [] ⟨loading.root, entries⟩ found.imports c s
  | next {importers : List Frame} {frame : Frame} {declaration : ImportDeclaration}
    {rest : List ImportDeclaration} {target : String} {imported : Imported τ} {c c' c'' : C}
    {s s' s'' : ρ} (reaches : Reaches importers frame (declaration :: rest) c s)
    (resolve : exec (loading.source.resolvePath frame.path declaration.path) c s =
      ⟨.ok target, c', s'⟩)
    (loaded : exec (loadOn loading.source loading.limit (paths (importers ++ [frame])) target)
      c' s' = ⟨.ok imported, c'', s''⟩) : Reaches importers frame rest c'' s''
  | down {importers : List Frame} {frame : Frame} {declaration : ImportDeclaration}
    {rest : List ImportDeclaration} {target : String} {first : Entries} {others : List Entries}
    {found : Section} {c c' c'' : C} {s s' s'' : ρ}
    (reaches : Reaches importers frame (declaration :: rest) c s)
    (resolve : exec (loading.source.resolvePath frame.path declaration.path) c s =
      ⟨.ok target, c', s'⟩)
    (fresh : target ∉ paths (importers ++ [frame])) (shallow : importers.length < loading.limit)
    (read : exec (loading.source.readSections target) c' s' = ⟨.ok (first :: others), c'', s''⟩)
    (shape : Section.ofEntries target first = .ok found) :
    Reaches (importers ++ [frame]) ⟨target, first⟩ found.imports c'' s''

/-- At some moment, an import that the section declares is resolved to the target. -/
inductive Turns (importers : List Frame) (frame : Frame) (target : String) : Prop
  | intro {found : Section} {declaration : ImportDeclaration} {rest : List ImportDeclaration}
    {c c' : C} {s s' : ρ} (shape : Section.ofEntries frame.path frame.entries = .ok found)
    (mem : declaration ∈ found.imports)
    (reaches : Reaches τ loading importers frame (declaration :: rest) c s)
    (resolve : exec (loading.source.resolvePath frame.path declaration.path) c s =
      ⟨.ok target, c', s'⟩) : Turns importers frame target

def Linked (frames : List Frame) (target : String) : Prop :=
  ∀ before frame after, frames = before ++ frame :: after →
    Turns τ loading before frame ((paths after).headD target)

/-- A chain of importers, from the file to an import. -/
structure Branch (frames : List Frame) (target : String) : Prop where
  rooted : (paths frames).head? = some loading.root
  nodup : (paths frames).Nodup
  linked : Linked τ loading frames target

/-- What a failure says about the imports of a load is so. -/
def Genuine : Failure → Prop
  | .cyclicImport text => ∃ before first rest,
    Branch τ loading (before ++ first :: rest) first.path ∧
      text = chainText (paths (first :: rest) ++ [first.path])
  | .importDepthExceeded target limit => limit = loading.limit ∧ ∃ frames,
    Branch τ loading frames target ∧ target ∉ paths frames ∧ frames.length = loading.limit + 1
  | _ => True

structure Loading.Blameless (loading : Loading C ρ) : Prop where
  read : ∀ path c s e c' s', exec (loading.source.readSections path) c s = ⟨.error e, c', s'⟩ →
    e.blamesImports = false
  resolve : ∀ importer written c s e c' s',
    exec (loading.source.resolvePath importer written) c s = ⟨.error e, c', s'⟩ →
      e.blamesImports = false

end

section

variable {loading : Loading C ρ} {importers before rest : List Frame} {frame first : Frame}
  {pending : List ImportDeclaration} {declaration : ImportDeclaration} {target : String}
  {c c' c'' : C} {s s' s'' : ρ} {e : Failure}

@[simp] theorem paths_append (frames others : List Frame) :
    paths (frames ++ others) = paths frames ++ paths others := List.map_append

@[simp] theorem paths_cons (frame : Frame) (frames : List Frame) :
    paths (frame :: frames) = frame.path :: paths frames := rfl

@[simp] theorem paths_nil : paths [] = [] := rfl

@[simp] theorem length_paths (frames : List Frame) : (paths frames).length = frames.length :=
  List.length_map ..

theorem Reaches.declared (h : Reaches τ loading importers frame pending c s) :
    ∃ found, Section.ofEntries frame.path frame.entries = .ok found ∧
      pending <:+ found.imports := by
  induction h with
  | root _ shape => exact ⟨_, shape, List.suffix_rfl⟩
  | next _ _ _ ih =>
    obtain ⟨found, hshape, hsuffix⟩ := ih
    exact ⟨found, hshape, (List.suffix_cons _ _).trans hsuffix⟩
  | down _ _ _ _ _ shape _ => exact ⟨_, shape, List.suffix_rfl⟩

theorem Reaches.turns {rest : List ImportDeclaration}
    (h : Reaches τ loading importers frame (declaration :: rest) c s)
    (hresolve : exec (loading.source.resolvePath frame.path declaration.path) c s =
      ⟨.ok target, c', s'⟩) : Turns τ loading importers frame target := by
  obtain ⟨found, hshape, hsuffix⟩ := h.declared
  exact .intro hshape (hsuffix.subset List.mem_cons_self) h hresolve

theorem linked_nil : Linked τ loading [] target := by
  intro before frame after h
  simp at h

theorem Linked.concat (h : Linked τ loading importers frame.path)
    (hturns : Turns τ loading importers frame target) :
    Linked τ loading (importers ++ [frame]) target := by
  intro before other after hsplit
  rcases List.eq_nil_or_concat after with rfl | ⟨after, last, rfl⟩
  · obtain ⟨rfl, hother⟩ := List.append_inj' hsplit rfl
    cases hother
    exact hturns
  · have hassoc : before ++ other :: after.concat last = (before ++ other :: after) ++ [last] := by
      simp
    obtain ⟨himporters, hlast⟩ := List.append_inj' (hsplit.trans hassoc) rfl
    cases hlast
    have hother := h before other after himporters
    cases after <;> exact hother

/-- Up to any moment, the importers are a branch that leads to the section. -/
theorem Reaches.branch (h : Reaches τ loading importers frame pending c s) :
    (paths (importers ++ [frame])).head? = some loading.root ∧
      (paths (importers ++ [frame])).Nodup ∧ Linked τ loading importers frame.path ∧
      importers.length ≤ loading.limit := by
  induction h with
  | root => exact ⟨rfl, List.nodup_singleton _, linked_nil, Nat.zero_le _⟩
  | next _ _ _ ih => exact ih
  | @down importers frame _ _ target first _ _ _ _ _ _ _ _ reaches resolve fresh shallow _ _ ih =>
    obtain ⟨hrooted, hnodup, hlinked, -⟩ := ih
    refine ⟨?_, ?_, hlinked.concat (reaches.turns resolve), ?_⟩
    · rw [paths_append, List.head?_append, hrooted, Option.some_or]
    · rw [paths_append, paths_cons, paths_nil, ← List.concat_eq_append]
      exact hnodup.concat fresh
    · simpa using Nat.succ_le_of_lt shallow

theorem Reaches.branch_of_resolve {rest : List ImportDeclaration}
    (h : Reaches τ loading importers frame (declaration :: rest) c s)
    (hresolve : exec (loading.source.resolvePath frame.path declaration.path) c s =
      ⟨.ok target, c', s'⟩) : Branch τ loading (importers ++ [frame]) target := by
  obtain ⟨hrooted, hnodup, hlinked, -⟩ := h.branch
  exact ⟨hrooted, hnodup, hlinked.concat (h.turns hresolve)⟩

theorem dropWhile_ne_of_nodup {before rest : List String} {path : String}
    (h : (before ++ path :: rest).Nodup) :
    (before ++ path :: rest).dropWhile (· ≠ path) = path :: rest := by
  have hbefore : ∀ other ∈ before, other ≠ path := by
    intro other hother
    exact (List.nodup_append.1 h).2.2 other hother path List.mem_cons_self
  rw [List.dropWhile_append_of_pos fun other hother => decide_eq_true (hbefore other hother)]
  exact List.dropWhile_cons_of_neg (by simp)

theorem Branch.genuine_cycle {frames : List Frame} (h : Branch τ loading frames target)
    (hagain : target ∈ paths frames) :
    Genuine τ loading
      (.cyclicImport (chainText ((paths frames).dropWhile (· ≠ target) ++ [target]))) := by
  obtain ⟨first, hfirst, rfl⟩ := List.mem_map.1 hagain
  obtain ⟨before, rest, rfl⟩ := List.append_of_mem hfirst
  have hnodup := h.nodup
  rw [paths_append, paths_cons] at hnodup
  refine ⟨before, first, rest, h, ?_⟩
  rw [paths_append, paths_cons, dropWhile_ne_of_nodup hnodup]

theorem Branch.genuine_depth {frames : List Frame} (h : Branch τ loading frames target)
    (hagain : target ∉ paths frames) (hdeep : loading.limit < frames.length)
    (hlimit : frames.length ≤ loading.limit + 1) :
    Genuine τ loading (.importDepthExceeded target loading.limit) :=
  ⟨rfl, frames, h, hagain, by omega⟩

theorem genuine_of_innocent (h : e.blamesImports = false) : Genuine τ loading e := by
  cases e with
  | cyclicImport | importDepthExceeded => cases h
  | _ => trivial

theorem eq_error_of_map {α β ε : Type} {r : Except ε α} {f : α → β} {e : ε}
    (h : r.map f = .error e) : r = .error e := by
  cases r with
  | ok a => cases h
  | error cause =>
    cases h
    rfl

def FailsGenuinely (τ : Type) (loading : Loading C ρ) (importers : List Frame) (frame : Frame) :
    Prop :=
  ∀ {declaration rest target c s c' s' e c'' s''},
    Reaches τ loading importers frame (declaration :: rest) c s →
    exec (loading.source.resolvePath frame.path declaration.path) c s = ⟨.ok target, c', s'⟩ →
    exec (loadOn loading.source loading.limit (paths (importers ++ [frame])) target :
      Effect C ρ (Imported τ)) c' s' = ⟨.error e, c'', s''⟩ → Genuine τ loading e

theorem genuine_of_loadImports (hblameless : loading.Blameless)
    (htargets : FailsGenuinely τ loading importers frame)
    (hreaches : Reaches τ loading importers frame pending c s)
    (hfails : (exec (loadImports loading.source frame.path
      (loadOn loading.source loading.limit (paths (importers ++ [frame]))) pending :
        Effect C ρ (List (Import (Module τ)) × List String)) c s).result = .error e) :
    Genuine τ loading e := by
  induction pending generalizing c s with
  | nil => cases hfails
  | cons declaration rest ih =>
    rcases hresolve : exec (loading.source.resolvePath frame.path declaration.path) c s
      with ⟨r, c₁, s₁⟩
    cases r with
    | error cause =>
      rw [exec_loadImports_unresolved hresolve] at hfails
      cases hfails
      exact genuine_of_innocent (hblameless.resolve _ _ _ _ _ _ _ hresolve)
    | ok target =>
      rcases hload : exec (loadOn loading.source loading.limit (paths (importers ++ [frame]))
        target : Effect C ρ (Imported τ)) c₁ s₁ with ⟨r, c₂, s₂⟩
      cases r with
      | error cause =>
        rw [exec_loadImports_failed hresolve hload] at hfails
        cases hfails
        exact htargets hreaches hresolve hload
      | ok imported =>
        rw [exec_loadImports_loaded hresolve hload rfl] at hfails
        exact ih (hreaches.next hresolve hload) (eq_error_of_map hfails)

theorem genuine_of_loadSection (importers : List Frame) (frame : Frame)
    (hblameless : loading.Blameless)
    (htargets : FailsGenuinely τ loading importers frame)
    (hreaches : ∀ found, Section.ofEntries frame.path frame.entries = .ok found →
      Reaches τ loading importers frame found.imports c s)
    (hfails : (exec (loadSection loading.source frame.path
      (loadOn loading.source loading.limit (paths (importers ++ [frame]))) frame.entries :
        Effect C ρ (Module τ)) c s).result = .error e) : Genuine τ loading e := by
  cases hshape : Section.ofEntries frame.path frame.entries with
  | error cause =>
    rw [exec_loadSection_malformed hshape] at hfails
    cases hfails
    exact genuine_of_innocent (Section.ofEntries_innocent hshape)
  | ok found =>
    rw [exec_loadSection_formed hshape rfl] at hfails
    exact genuine_of_loadImports hblameless htargets (hreaches found hshape)
      (eq_error_of_map hfails)

/-- What has been read is the next section on the branch. -/
theorem genuine_of_read (hblameless : loading.Blameless)
    (hbelow : ∀ first, FailsGenuinely τ loading (importers ++ [frame]) ⟨target, first⟩)
    (hreaches : Reaches τ loading importers frame (declaration :: pending) c s)
    (hresolve : exec (loading.source.resolvePath frame.path declaration.path) c s =
      ⟨.ok target, c', s'⟩)
    (hagain : target ∉ paths (importers ++ [frame]))
    (hshallow : (paths (importers ++ [frame])).length ≤ loading.limit)
    (hfails : (exec (loadOn loading.source loading.limit (paths (importers ++ [frame])) target :
      Effect C ρ (Imported τ)) c' s').result = .error e) : Genuine τ loading e := by
  rcases hread : exec (loading.source.readSections target) c' s' with ⟨r, c₁, s₁⟩
  rcases r with cause | ⟨_ | ⟨first, others⟩⟩
  · rw [exec_loadOn_unreadable hagain hshallow hread] at hfails
    cases hfails
    exact genuine_of_innocent (hblameless.read _ _ _ _ _ _ hread)
  · rw [exec_loadOn_empty hagain hshallow hread] at hfails
    cases hfails
    trivial
  · have hlimit : importers.length < loading.limit := by
      simpa [Nat.succ_le_iff] using hshallow
    have hpushed : paths (importers ++ [frame]) ++ [target] =
        paths (importers ++ [frame] ++ [⟨target, first⟩]) := by simp
    rw [exec_loadOn_read hagain hshallow hread rfl, hpushed] at hfails
    refine genuine_of_loadSection (importers ++ [frame]) ⟨target, first⟩ hblameless (hbelow first)
      (fun found hshape => ?_) (eq_error_of_map hfails)
    exact hreaches.down hresolve hagain hlimit hread hshape

/-- The targets on the branch are cycles, those behind it may be too deep, and below every other one
the branch goes on with less room. -/
theorem genuine_of_loadOn (hblameless : loading.Blameless) :
    FailsGenuinely τ loading importers frame := by
  induction hroom : loading.limit + 1 - importers.length generalizing importers frame with
  | zero =>
    intro declaration rest target c s c₁ s₁ e c₂ s₂ hreaches hresolve hfails
    obtain ⟨-, -, -, hdepth⟩ := hreaches.branch
    omega
  | succ room ih =>
    intro declaration rest target c s c₁ s₁ e c₂ s₂ hreaches hresolve hfails
    have hbranch := hreaches.branch_of_resolve hresolve
    by_cases hagain : target ∈ paths (importers ++ [frame])
    · rw [exec_loadOn_cycle hagain] at hfails
      cases hfails
      exact hbranch.genuine_cycle hagain
    by_cases hdeep : loading.limit < (paths (importers ++ [frame])).length
    · rw [exec_loadOn_tooDeep hagain hdeep] at hfails
      cases hfails
      obtain ⟨-, -, -, hdepth⟩ := hreaches.branch
      refine hbranch.genuine_depth hagain (by rwa [length_paths] at hdeep) ?_
      simpa using hdepth
    have hbelow (first : Entries) :
        FailsGenuinely τ loading (importers ++ [frame]) ⟨target, first⟩ := by
      apply ih
      rw [List.length_append, List.length_singleton]
      omega
    exact genuine_of_read hblameless hbelow hreaches hresolve hagain (Nat.le_of_not_lt hdeep)
      (by rw [hfails])

theorem genuine_of_mapM (hblameless : loading.Blameless) {sections : List Entries}
    (hopens : Opens τ loading sections c s)
    (hfails : (exec (sections.mapM (loadSection loading.source loading.root
      (loadOn loading.source loading.limit [loading.root])) : Effect C ρ (List (Module τ)))
        c s).result = .error e) : Genuine τ loading e := by
  induction sections generalizing c s with
  | nil => cases hfails
  | cons entries rest ih =>
    rw [List.mapM_cons] at hfails
    rcases hload : exec (loadSection loading.source loading.root
      (loadOn loading.source loading.limit [loading.root]) entries : Effect C ρ (Module τ)) c s
      with ⟨r, c₁, s₁⟩
    cases r with
    | error cause =>
      rw [exec_bind_error hload] at hfails
      cases hfails
      refine genuine_of_loadSection [] ⟨loading.root, entries⟩ hblameless
        (genuine_of_loadOn hblameless) ?_ (congrArg Trace.result hload)
      intro found hshape
      exact .root hopens hshape
    | ok module =>
      rw [exec_bind_ok hload, exec_bind_pure _ rfl] at hfails
      exact ih (hopens.next hload) (eq_error_of_map hfails)

theorem genuine_of_load (hblameless : loading.Blameless)
    (hfails : (exec (load loading.source loading.limit loading.path : Effect C ρ (List (Module τ)))
      loading.state loading.world).result = .error e) : Genuine τ loading e := by
  rcases hread : exec (loading.source.readSections loading.root) loading.state loading.world
    with ⟨r, c₁, s₁⟩
  rcases r with cause | ⟨_ | ⟨first, others⟩⟩
  · rw [exec_load_unreadable hread] at hfails
    cases hfails
    exact genuine_of_innocent (hblameless.read _ _ _ _ _ _ hread)
  · rw [exec_load_empty hread] at hfails
    cases hfails
    trivial
  · rw [exec_load_read hread] at hfails
    exact genuine_of_mapM hblameless (.read hread) hfails

end

section

variable {source : Source (StateM ρ)} {cache : Option Cache} {s : ρ}

/-- A read through a cache fails only if the read behind it does. -/
theorem run_cached_read_error {path : String} {trouble : Trouble}
    (h : (((source.cached.read path).run cache).run s).1.1 = .error trouble) :
    ((source.read path).run s).1 = .error trouble := by
  cases cache with
  | none => exact h
  | some cache =>
    cases hlookup : cache.documents.lookup path with
    | some sections =>
      rw [run_cached_read_hit source path s hlookup] at h
      cases h
    | none =>
      rw [run_cached_read_miss source path s hlookup] at h
      exact h

end

theorem eq_error_of_mapError {α β γ : Type} {r : Except α β} {f : α → γ} {e : γ}
    (h : r.mapError f = .error e) : ∃ cause, r = .error cause ∧ f cause = e := by
  cases r with
  | ok a => cases h
  | error cause =>
    cases h
    exact ⟨cause, rfl, rfl⟩

theorem blameless_cached {source : Source (StateM ρ)} (innocent : source.Innocent) (limit : Nat)
    (path : String) (cache : Option Cache) (s : ρ) :
    Loading.Blameless ⟨source.cached, limit, path, cache, s⟩ := by
  constructor
  · intro path c s e c' s' h
    rw [exec_readSections rfl, Trace.mk.injEq] at h
    obtain ⟨trouble, htrouble, rfl⟩ := eq_error_of_mapError h.1
    exact Trouble.toFailure_innocent
      (fun e => innocent.read path s trouble e (run_cached_read_error htrouble)) fun _ => rfl
  · intro importer written c s e c' s' h
    rw [exec_resolvePath rfl, Trace.mk.injEq] at h
    obtain ⟨trouble, htrouble, rfl⟩ := eq_error_of_mapError h.1
    exact Trouble.toFailure_innocent
      (fun e => innocent.resolve importer written s trouble e htrouble) fun _ => rfl

/-- A load from an innocent source blames imports only for what they are. -/
theorem load_genuine {source : Source (StateM ρ)} (innocent : source.Innocent) {limit : Nat}
    {path : String} {cache : Option Cache} {s : ρ} {e : Failure}
    (fails : (exec (load source.cached limit path : Effect _ ρ (List (Module τ))) cache s).result =
      .error e) : Genuine τ ⟨source.cached, limit, path, cache, s⟩ e :=
  genuine_of_load (blameless_cached innocent limit path cache s) fails

def ropeFiles : Source (StateM Unit) where
  read path :=
    let target := if path = "b.yaml" then "c.yaml" else "b.yaml"
    return .ok [[("imports", .list [.map [("next", .string target)]]), ("pod", .null)]]
  resolve _ written := return .ok written

theorem load_rope_genuine : ropeFiles.Innocent ∧
    (exec (load ropeFiles.cached 2 "./a.yaml" : Effect _ Unit (List (Module Unit)))
      (some .empty) ()).result = .error (.cyclicImport "b.yaml → c.yaml → b.yaml") ∧
    Genuine Unit ⟨ropeFiles.cached, 2, "./a.yaml", some .empty, ()⟩
      (.cyclicImport "b.yaml → c.yaml → b.yaml") ∧
    (exec (load ropeFiles.cached 1 "./a.yaml" : Effect _ Unit (List (Module Unit)))
      (some .empty) ()).result = .error (.importDepthExceeded "c.yaml" 1) ∧
    Genuine Unit ⟨ropeFiles.cached, 1, "./a.yaml", some .empty, ()⟩
      (.importDepthExceeded "c.yaml" 1) := by
  have hinnocent : ropeFiles.Innocent := by
    constructor
    · rintro _ _ _ _ ⟨⟩
    · rintro _ _ _ _ _ ⟨⟩
  have hcycle : (exec (load ropeFiles.cached 2 "./a.yaml" : Effect _ Unit (List (Module Unit)))
      (some .empty) ()).result = .error (.cyclicImport "b.yaml → c.yaml → b.yaml") := rfl
  have hdeep : (exec (load ropeFiles.cached 1 "./a.yaml" : Effect _ Unit (List (Module Unit)))
      (some .empty) ()).result = .error (.importDepthExceeded "c.yaml" 1) := rfl
  exact ⟨hinnocent, hcycle, load_genuine hinnocent hcycle, hdeep, load_genuine hinnocent hdeep⟩

end Module

end ManifestModules
