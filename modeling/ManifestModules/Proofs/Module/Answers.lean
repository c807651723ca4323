import ManifestModules.Proofs.Module.Loading
import ManifestModules.Proofs.Table

/-!
# Loading depends on the answers of the source only

A source with effects that gives fixed answers loads the same modules as these answers alone, and a
cache that holds such answers makes no difference.
-/

namespace ManifestModules.Module

variable {C ρ τ α β : Type}

/-- What a source answers, whatever state it is in. -/
structure Answers (source : Source (StateM ρ)) (files : Source Id) : Prop where
  read : ∀ path s, ((source.read path).run s).1 = (files.read path).run
  resolve : ∀ importer written s,
    ((source.resolve importer written).run s).1 = (files.resolve importer written).run

/-- A cache, if there is one, holds only what is read. The empty cache does. -/
def Faithful (files : Source Id) : Option Cache → Prop
  | none => True
  | some cache => ∀ path sections, cache.documents.lookup path = some sections →
      (files.read path).run = .ok sections

/-- A computation has a fixed result as long as a condition on its state holds, and it keeps this
condition. -/
def Computes (I : C → Prop) (x : Effect C ρ α) (y : ExceptT Failure Id α) : Prop :=
  ∀ c s, I c → ∃ c' s', I c' ∧ exec x c s = ⟨value y, c', s'⟩

namespace Computes

variable {I : C → Prop} {x : Effect C ρ α} {y : ExceptT Failure Id α}

theorem pure (a : α) : Computes I (Pure.pure a : Effect C ρ α) (Pure.pure a) :=
  fun c s hc => ⟨c, s, hc, rfl⟩

theorem throw (e : Failure) :
    Computes I (MonadExcept.throw e : Effect C ρ α) (MonadExcept.throw e) :=
  fun c s hc => ⟨c, s, hc, rfl⟩

theorem bind {f : α → Effect C ρ β} {g : α → ExceptT Failure Id β} (hx : Computes I x y)
    (hf : ∀ a, Computes I (f a) (g a)) : Computes I (x >>= f) (y >>= g) := by
  intro c s hc
  obtain ⟨c', s', hc', hrun⟩ := hx c s hc
  cases hy : value y with
  | error e =>
    rw [hy] at hrun
    exact ⟨c', s', hc', by rw [exec_bind_error hrun, value_bind_error hy]⟩
  | ok a =>
    rw [hy] at hrun
    rw [exec_bind_ok hrun, value_bind_ok hy]
    exact hf a c' s' hc'

end Computes

def computes (ρ : Type) (I : C → Prop) : LoadRelation (StateT C (StateM ρ)) Id where
  Rel := Computes I
  pure := Computes.pure
  throw := Computes.throw
  bind := Computes.bind

section

theorem exec_readSections {source : Source (StateT C (StateM ρ))} {path : String} {c c' : C}
    {s s' : ρ} {r : Except Trouble (List Entries)}
    (h : ((source.read path).run c).run s = ((r, c'), s')) :
    exec (source.readSections path) c s =
      ⟨r.mapError fun trouble => trouble.toFailure (.readFailed path), c', s'⟩ := by
  rw [Source.readSections, exec_bind_ok (exec_lift h)]
  cases r <;> rfl

theorem exec_resolvePath {source : Source (StateT C (StateM ρ))} {importer written : String}
    {c c' : C} {s s' : ρ} {r : Except Trouble String}
    (h : ((source.resolve importer written).run c).run s = ((r, c'), s')) :
    exec (source.resolvePath importer written) c s =
      ⟨r.mapError fun trouble => trouble.toFailure (.importPathFailed importer written),
        c', s'⟩ := by
  rw [Source.resolvePath, exec_bind_ok (exec_lift h)]
  cases r <;> rfl

variable {files : Source Id}

theorem value_readSections (path : String) : value (files.readSections path) =
    (files.read path).run.mapError fun trouble => trouble.toFailure (.readFailed path) := by
  refine (value_bind_ok (a := (files.read path).run) rfl).trans ?_
  cases (files.read path).run <;> rfl

theorem value_resolvePath (importer written : String) :
    value (files.resolvePath importer written) = (files.resolve importer written).run.mapError
      fun trouble => trouble.toFailure (.importPathFailed importer written) := by
  refine (value_bind_ok (a := (files.resolve importer written).run) rfl).trans ?_
  cases (files.resolve importer written).run <;> rfl

def learned (cache : Cache) (path : String) : Except Trouble (List Entries) → Cache
  | .ok sections => cache.insert path sections
  | .error _ => cache

/-- A read through a cache. -/
theorem run_cached_read {m : Type → Type} [Monad m] [LawfulMonad m] (source : Source m)
    (path : String) (cache : Cache) :
    (source.cached.read path).run (some cache) =
      match cache.documents.lookup path with
      | some sections => pure (.ok sections, some { cache with hits := cache.hits + 1 })
      | none => do
        let r ← source.read path
        return (r, some (learned { cache with misses := cache.misses + 1 } path r)) := by
  simp only [Source.cached, StateT.run_bind, StateT.run_get, pure_bind, Cache.get]
  cases cache.documents.lookup path with
  | some sections => simp
  | none =>
    simp only [StateT.run_bind, StateT.run_set, pure_bind, StateT.run_monadLift, bind_assoc]
    congr 1
    funext r
    cases r <;> simp [learned]

variable (source : Source (StateM ρ)) (path : String) (s : ρ) {cache : Cache}

theorem run_cached_read_none : ((source.cached.read path).run none).run s =
    ((((source.read path).run s).1, none), ((source.read path).run s).2) := rfl

theorem run_cached_read_hit {sections : List Entries}
    (h : cache.documents.lookup path = some sections) :
    ((source.cached.read path).run (some cache)).run s =
      ((.ok sections, some { cache with hits := cache.hits + 1 }), s) := by
  rw [run_cached_read, h]
  rfl

theorem run_cached_read_miss (h : cache.documents.lookup path = none) :
    ((source.cached.read path).run (some cache)).run s =
      let left := (source.read path).run s
      ((left.1, some (learned { cache with misses := cache.misses + 1 } path left.1)), left.2) := by
  rw [run_cached_read, h]
  rfl

theorem Faithful.learned {r : Except Trouble (List Entries)} (h : Faithful files (some cache))
    (hr : (files.read path).run = r) : Faithful files (some (learned cache path r)) := by
  cases r with
  | error trouble => exact h
  | ok found =>
    intro other sections hlookup
    change (Table.put cache.documents path found).lookup other = some sections at hlookup
    rw [Table.lookup_put] at hlookup
    by_cases hother : other = path
    · rw [if_pos hother] at hlookup
      cases hlookup
      rw [hother]
      exact hr
    · rw [if_neg hother] at hlookup
      exact h other sections hlookup

variable {source}

/-- A cache makes no difference as long as it is faithful, and it stays so. -/
theorem Answers.served (h : Answers source files) :
    (computes ρ (Faithful files)).Served source.cached files := by
  refine ⟨fun path c s hc => ?_, fun importer written c s hc => ?_⟩
  · rw [value_readSections]
    cases c with
    | none =>
      refine ⟨none, ((source.read path).run s).2, trivial, ?_⟩
      rw [exec_readSections (run_cached_read_none source path s), h.read]
    | some cache =>
      cases hfound : cache.documents.lookup path with
      | some sections =>
        refine ⟨some { cache with hits := cache.hits + 1 }, s, hc, ?_⟩
        rw [exec_readSections (run_cached_read_hit source path s hfound), hc path sections hfound]
      | none =>
        let counted : Cache := { cache with misses := cache.misses + 1 }
        have hcounted : Faithful files (some counted) := hc
        refine ⟨some (learned counted path (files.read path).run), ((source.read path).run s).2,
          hcounted.learned path rfl, ?_⟩
        rw [exec_readSections (run_cached_read_miss source path s hfound), h.read]
  · rw [value_resolvePath]
    have hrun : ((source.cached.resolve importer written).run c).run s =
        ((((source.resolve importer written).run s).1, c),
          ((source.resolve importer written).run s).2) := rfl
    exact ⟨c, ((source.resolve importer written).run s).2, hc,
      by rw [exec_resolvePath hrun, h.resolve]⟩

end

end ManifestModules.Module
