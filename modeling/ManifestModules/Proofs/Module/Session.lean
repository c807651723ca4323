import ManifestModules.Proofs.Cache
import ManifestModules.Proofs.Module.Answers
import ManifestModules.Proofs.Module.Requests

/-!
# Sessions with and without a cache

A session loads and evaluates modules, as often as it likes and in any order. It cannot be told from
its outcomes whether there is a cache: only the files are read less often.
-/

namespace ManifestModules.Module

section

variable {m m' : Type → Type} [Monad m] [Monad m'] {τ : Type}

/-- A view of computations as computations in other surroundings. -/
structure Embedding (m m' : Type → Type) [Monad m] [Monad m'] where
  embed : ∀ {α : Type}, m α → m' α
  embed_pure : ∀ {α : Type} (a : α), embed (pure a) = pure a
  embed_bind : ∀ {α β : Type} (x : m α) (f : α → m β),
    embed (x >>= f) = embed x >>= fun a => embed (f a)

def Embedding.converter (e : Embedding m m') (convert : Converter m τ) : Converter m' τ :=
  fun raw => e.embed (convert raw)

theorem convertResource_embed (e : Embedding m m') (convert : Converter m τ) (path : String)
    (raw : Entries) :
    e.embed (convertResource convert path raw) =
      convertResource (e.converter convert) path raw := by
  rw [convertResource, convertResource, e.embed_bind]
  congr 1
  funext result
  cases result with
  | ok value => exact e.embed_pure _
  | error trouble => exact e.embed_pure _

end

variable {σ τ α β : Type}

/-- The surroundings of a session: perhaps a cache, the paths that were read, and the surroundings
of the converter. -/
abbrev Context (σ : Type) := StateT (Option Cache) (StateM (List String × σ))

/-- Files with a record of what is read. -/
def recorded (files : Source Id) : Source (StateM (List String × σ)) where
  read path := do
    modify fun (reads, s) => (reads ++ [path], s)
    return (files.read path).run
  resolve importer written := return (files.resolve importer written).run

/-- The converter knows neither the cache nor what is read. -/
def aside (σ : Type) : Embedding (StateM σ) (Context σ) where
  embed x := fun cache (reads, s) =>
    let (a, s') := x.run s
    ((a, cache), (reads, s'))
  embed_pure _ := rfl
  embed_bind _ _ := rfl

structure Session (σ τ : Type) where
  results : List (Except Failure Unit)
  shelf : List (Module τ)
  cache : Option Cache
  reads : List String
  world : σ

/-- A session that begins with an empty shelf. -/
def session (files : Source Id) (limit : Nat) (convert : Converter (StateM σ) τ)
    (requests : List Request) (cache : Option Cache) (s : σ) : Session σ τ :=
  let work : Context σ (List (Except Failure Unit) × List (Module τ)) :=
    respondAll (recorded files).cached limit ((aside σ).converter convert) requests []
  let left := (work.run cache).run ([], s)
  ⟨left.1.1.1, left.1.1.2, left.1.2, left.2.1, left.2.2⟩

theorem run_context_bind (x : Context σ α) (f : α → Context σ β) (cache : Option Cache)
    (world : List String × σ) :
    ((x >>= f).run cache).run world =
      let left := (x.run cache).run world
      ((f left.1.1).run left.1.2).run left.2 := rfl

/-- A computation with a cache has the result of another one without a cache and does the same to
the converter, and the cache stays in step. -/
def Parallel (files : Source Id) (x y : Context σ α) : Prop :=
  ∀ cache reads plain s, InStep files cache reads plain → ∃ a cache' reads' plain' s',
    InStep files cache' reads' plain' ∧
      (x.run (some cache)).run (reads, s) = ((a, some cache'), (reads', s')) ∧
      (y.run none).run (plain, s) = ((a, none), (plain', s'))

def parallel (σ : Type) (files : Source Id) : Concord (Context σ) (Context σ) where
  Rel := Parallel files
  pure a := fun cache reads plain s h => ⟨a, cache, reads, plain, s, h, rfl, rfl⟩
  bind {α β x y f g} hx hf := by
    intro cache reads plain s h
    obtain ⟨a, cache₁, reads₁, plain₁, s₁, h₁, hcached, hplain⟩ := hx cache reads plain s h
    obtain ⟨b, cache₂, reads₂, plain₂, s₂, h₂, hcached₂, hplain₂⟩ := hf a cache₁ reads₁ plain₁ s₁ h₁
    refine ⟨b, cache₂, reads₂, plain₂, s₂, h₂, ?_, ?_⟩
    · rw [run_context_bind, hcached]
      exact hcached₂
    · rw [run_context_bind, hplain]
      exact hplain₂

section

variable {files : Source Id}

/-- A path is read once with a cache, unless it cannot be read. -/
theorem parallel_read (path : String) :
    (parallel σ files).Rel ((recorded files).cached.read path)
      ((recorded files).cached.read path) := by
  intro cache reads plain s h
  have hplain : (((recorded files).cached.read path : Context σ _).run none).run (plain, s) =
      (((files.read path).run, none), (plain ++ [path], s)) := rfl
  cases hfound : cache.documents.lookup path with
  | some sections =>
    have hread := ((h.documents path sections).1 hfound).2
    refine ⟨.ok sections, _, reads, plain ++ [path], s, h.hit hfound,
      run_cached_read_hit _ path (reads, s) hfound, ?_⟩
    rw [hplain, hread]
  | none =>
    have hcached := run_cached_read_miss (recorded files) path (reads, s) hfound
    have hrun : ((recorded files).read path).run (reads, s) =
        ((files.read path).run, (reads ++ [path], s)) := rfl
    rw [hrun] at hcached
    cases hread : (files.read path).run with
    | ok sections =>
      rw [hread] at hcached hplain
      exact ⟨_, _, _, _, s, h.miss_ok hfound hread, hcached, hplain⟩
    | error trouble =>
      rw [hread] at hcached hplain
      exact ⟨_, _, _, _, s, h.miss_error hfound hread, hcached, hplain⟩

theorem parallel_served :
    (loading (parallel σ files).relator).Served (recorded files).cached
      (recorded files).cached := by
  apply served_loading
  · exact fun path => Concord.related (parallel_read path) fun _ => rfl
  · intro importer written
    apply Concord.related _ fun _ => rfl
    exact fun cache reads plain s h => ⟨_, cache, reads, plain, s, h, rfl, rfl⟩

theorem parallel_converts (convert : Converter (StateM σ) τ) :
    (Likeness.same τ).Converts (parallel σ files).relator ((aside σ).converter convert)
      ((aside σ).converter convert) := by
  intro path raw
  apply Concord.related _ fun _ => rfl
  rw [← convertResource_embed]
  exact fun cache reads plain s h => ⟨_, cache, reads, plain, _, h, rfl, rfl⟩

theorem parallel_respondAll (limit : Nat) (convert : Converter (StateM σ) τ)
    (requests : List Request) :
    let work := respondAll (recorded files).cached limit ((aside σ).converter convert) requests []
    Parallel files work work := by
  exact Concord.of_related (respondAll_uniform .nil parallel_served loadsAlike_same
    (parallel_converts convert) limit requests) fun _ _ h =>
      Prod.ext h.results.symm (Likeness.eq_of_forall₂_same h.shelf)

end

/-- The cache is transparent. Whatever is asked for, the outcomes, the trees and the conversions are
the same with it and without it. The reads that are left are the first ones of each path that could
be read and all others, and the counters of the cache tell them apart. -/
theorem session_cached (files : Source Id) (limit : Nat) (convert : Converter (StateM σ) τ)
    (requests : List Request) (s : σ) :
    let plain := session files limit convert requests none s
    let kept := session files limit convert requests (some .empty) s
    (kept.results = plain.results ∧ kept.shelf = plain.shelf ∧ kept.world = plain.world) ∧
    kept.reads = firstReads files plain.reads ∧
    ∃ cache, kept.cache = some cache ∧ cache.misses = kept.reads.length ∧
      cache.hits + cache.misses = plain.reads.length ∧
      cache.size = (readPaths files plain.reads).card := by
  obtain ⟨a, cache, reads, plain, s', h, hcached, hplain⟩ :=
    parallel_respondAll limit convert requests .empty [] [] s (.empty files)
  simp only [session, hcached, hplain]
  exact ⟨⟨trivial, trivial, trivial⟩, h.reads_eq, cache, rfl, h.misses, h.total, h.size⟩

end ManifestModules.Module
