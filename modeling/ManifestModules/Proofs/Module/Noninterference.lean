import ManifestModules.Proofs.Module.Session

/-!
# Conversions do not interfere

What a session loads and evaluates is not changed by its converter, which may convert to anything
and fail as it likes. Two sessions that differ in their converters only give the same outcomes, and
leave the same modules but for the results of conversions.
-/

namespace ManifestModules.Module

variable {ρ σ τ : Type}

/-- A source with a record of what is read, beside the surroundings of a converter. -/
def noting (source : Source (StateM ρ)) : Source (StateM (List String × ρ × σ)) where
  read path := fun (reads, r, s) =>
    let (result, r) := (source.read path).run r
    (result, (reads ++ [path], r, s))
  resolve importer written := fun (reads, r, s) =>
    let (result, r) := (source.resolve importer written).run r
    (result, (reads, r, s))

/-- A converter beside the surroundings of a source. -/
def besideSource (ρ : Type) (convert : Converter (StateM σ) τ) : Converter (Context (ρ × σ)) τ :=
  fun raw cache (reads, r, s) =>
    let (result, s) := (convert raw).run s
    ((result, cache), (reads, r, s))

/-- A session with a source that may have effects of its own. It begins with an empty shelf. -/
def sessionOn (source : Source (StateM ρ)) (limit : Nat) (convert : Converter (StateM σ) τ)
    (requests : List Request) (cache : Option Cache) (r : ρ) (s : σ) : Session (ρ × σ) τ :=
  let work : Context (ρ × σ) (List (Except Failure Unit) × List (Module τ)) :=
    respondAll (noting source).cached limit (besideSource ρ convert) requests []
  let left := (work.run cache).run ([], r, s)
  ⟨left.1.1.1, left.1.1.2, left.1.2, left.2.1, left.2.2⟩

/-- To forget the surroundings of the converter. -/
def withoutConverter (ρ σ : Type) : Relator (Context (ρ × σ)) (Context (ρ × Unit)) where
  Rel R x y := ∀ cache reads r s,
    let left := (x.run cache).run (reads, r, s)
    let left' := (y.run cache).run (reads, r, ())
    R left.1.1 left'.1.1 ∧ left'.1.2 = left.1.2 ∧ left'.2 = (left.2.1, left.2.2.1, ())
  pure h := fun _ _ _ _ => ⟨h, rfl, rfl⟩
  bind hx hf := by
    intro cache reads r s
    obtain ⟨hresult, hcache, hworld⟩ := hx cache reads r s
    simp only [run_context_bind, hcache, hworld]
    exact hf _ _ hresult _ _ _ _

theorem served_noting (source : Source (StateM ρ)) :
    (loading (withoutConverter ρ σ)).Served (noting source).cached (noting source).cached := by
  apply served_loading
  · intro path cache reads r s
    cases cache with
    | none => exact ⟨rfl, rfl, rfl⟩
    | some cache =>
      cases hfound : cache.documents.lookup path with
      | some sections =>
        rw [run_cached_read_hit _ _ _ hfound, run_cached_read_hit _ _ _ hfound]
        exact ⟨rfl, rfl, rfl⟩
      | none =>
        rw [run_cached_read_miss _ _ _ hfound, run_cached_read_miss _ _ _ hfound]
        exact ⟨rfl, rfl, rfl⟩
  · intro importer written cache reads r s
    exact ⟨rfl, rfl, rfl⟩

theorem converts_besideSource (convert : Converter (StateM σ) τ) :
    (Likeness.bare τ).Converts (withoutConverter ρ σ) (besideSource ρ convert)
      (besideSource ρ asUnit) := by
  intro path raw
  have hunit : (withoutConverter ρ σ).Rel (fun _ result' => result' = .ok ())
      (besideSource ρ convert raw) (besideSource ρ asUnit raw) := fun _ _ _ _ => ⟨rfl, rfl, rfl⟩
  apply (withoutConverter ρ σ).bind hunit
  rintro result _ rfl
  cases result with
  | ok value => exact (withoutConverter ρ σ).pure rfl
  | error trouble => exact (withoutConverter ρ σ).pure rfl

/-- A session whose converter is forgotten is the session with a converter that tells nothing. -/
theorem sessionOn_bare (source : Source (StateM ρ)) (limit : Nat)
    (convert : Converter (StateM σ) τ) (requests : List Request) (cache : Option Cache) (r : ρ)
    (s : σ) :
    let left := sessionOn source limit convert requests cache r s
    sessionOn source limit asUnit requests cache r () =
      ⟨left.results, left.shelf.map bare, left.cache, left.reads, left.world.1, ()⟩ := by
  have huniform := respondAll_uniform .nil (served_noting source)
    (loadsAlike_ofMap bare _ _) (converts_besideSource convert) limit requests
  obtain ⟨⟨hresults, hshelf⟩, hcache, hworld⟩ := huniform cache [] r s
  have hbare := Likeness.map_eq_of_forall₂ hshelf
  simp only [sessionOn, hresults, hbare, hcache, hworld]

/-- Conversions do not interfere. Whatever two converters make of the resources, whether they fail
or not, sessions with them have the same outcomes, leave the same modules but for the results of
conversions and the same cache, and make the same reads. -/
theorem session_conversions {σ' τ' : Type} (source : Source (StateM ρ)) (limit : Nat)
    (convert : Converter (StateM σ) τ) (convert' : Converter (StateM σ') τ')
    (requests : List Request) (cache : Option Cache) (r : ρ) (s : σ) (s' : σ') :
    let one := sessionOn source limit convert requests cache r s
    let other := sessionOn source limit convert' requests cache r s'
    one.results = other.results ∧ one.shelf.map bare = other.shelf.map bare ∧
      one.cache = other.cache ∧ one.reads = other.reads ∧ one.world.1 = other.world.1 := by
  have hbare := (sessionOn_bare source limit convert requests cache r s).symm.trans
    (sessionOn_bare source limit convert' requests cache r s')
  simp only [Session.mk.injEq, Prod.mk.injEq] at hbare
  obtain ⟨hresults, hshelf, hcache, hreads, hworld, -⟩ := hbare
  exact ⟨hresults, hshelf, hcache, hreads, hworld⟩

end ManifestModules.Module
