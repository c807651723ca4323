import ManifestModules.Proofs.Module.Agreement
import ManifestModules.Proofs.Module.Calls
import ManifestModules.Proofs.Module.Loaded

/-!
# What is remembered between calls

A loaded module may be called any number of times with the same parameters: a later evaluation has
the outcome of the evaluation by name. After a failure with other parameters the imports that were
evaluated stay what they are, so that a second attempt is an evaluation by name around them.
-/

namespace ManifestModules.Module

variable {σ τ : Type}

abbrev byName (module : Module τ) (given : Entries) : Except Failure Entries :=
  callByName (fun _ => false) module given

def isEvaluated (site : Import (Module τ)) : Bool :=
  site.state = .evaluated

/-- A tree on which an evaluation can start: exactly the imports in `kept` are evaluated, and around
them there is no progress. -/
inductive Ready (kept : Import (Module τ) → Bool) : Module τ → Prop
  | intro {module : Module τ} (pending : module.evaluated = false)
    (settled : ∀ site ∈ module.imports,
      site.state ≠ .evaluating ∧ (site.state = .evaluated ↔ kept site = true))
    (imports : ∀ site ∈ module.imports, kept site = false → Ready kept site.module) :
    Ready kept module

variable {kept : Import (Module τ) → Bool} {module : Module τ}

theorem Ready.pending (h : Ready kept module) : module.evaluated = false := by
  cases h with
  | intro pending _ _ => exact pending

theorem Fresh.ready (hkept : ∀ site : Import (Module τ), site.state = .unevaluated →
    kept site = false) (h : Fresh module) : Ready kept module := by
  induction h with
  | intro pending _ _ idle _ ih =>
    refine ⟨pending, fun site hsite => ?_, fun site hsite _ => ih site hsite⟩
    rw [idle site hsite, hkept site (idle site hsite)]
    simp

theorem Loaded.ready (h : Loaded module) : Ready (fun _ => false) module :=
  h.fresh.ready fun _ _ => rfl

/-- To start is to have made no progress yet. -/
theorem Ready.progress (h : Ready kept module) :
    ∀ given, Progress kept module given module := by
  induction h with
  | @intro module pending settled imports ih =>
    intro given
    have hsame {i : Nat} {old site : Import (Module τ)}
        (hb : Became module.imports module.imports i old site) : site = old :=
      Option.some.inj (hb.new.symm.trans hb.old)
    refine .intro rfl rfl (fun _ => rfl) ?_ ⟨⟨rfl, ?_⟩, ?_, ?_, ?_⟩ ?_ fun i old site hb _ _ _ => ?_
    · intro he
      rw [pending] at he
      cases he
    · intro i site hsite
      have hnot := (settled site (List.mem_of_getElem? hsite)).1
      simp [hnot]
    · intro i old site hb hk
      rw [hsame hb]
      exact (settled old (List.mem_of_getElem? hb.old)).2.2 hk
    · intro i site hsite hs other _
      exact bodyByName_kept hsite ((settled site (List.mem_of_getElem? hsite)).2.1 hs)
    · intro i site hsite hs
      have hmem := List.mem_of_getElem? hsite
      have hk : kept site = false := by
        rw [← Bool.not_eq_true]
        exact fun hkept => hs ((settled site hmem).2.2 hkept)
      exact (imports site hmem hk).pending
    · intro i old site hb hk params _
      rw [hsame hb]
      exact ih old (List.mem_of_getElem? hb.old) hk params
    · rw [hsame hb]

/-- An evaluation that starts from here goes by name around what is kept. -/
theorem Ready.outcome_evaluate (h : Ready kept module) (convert : Converter (StateM σ) τ)
    (given : Entries) (s : σ) :
    outcome ((evaluate convert module given).run s).1 = callByName kept module given :=
  (evaluate_achieves convert module module given (h.progress given) s).outcome

theorem Progress.runCalls {base current : Module τ} {given : Entries}
    (convert : Converter (StateM σ) τ) (names : List (Option String))
    (h : Progress kept base given current) (s : σ) :
    Progress kept base given
      ((runCalls convert (names.map (Call.atRoot given)) current).run s).1.2 := by
  induction names generalizing current s with
  | nil => exact h
  | cons name rest ih =>
    rw [List.map_cons, run_runCalls_cons]
    refine ih ?_ _
    cases name with
    | none => exact (evaluate_achieves convert current base given h s).progress
    | some name => exact evaluateImport_progress convert h name s

section

variable {base current : Module τ} {given : Entries}

/-- What a failed evaluation leaves can be evaluated around the imports it has evaluated. -/
theorem Progress.ready (h : Progress (fun _ => false) base given current) (fresh : Fresh base)
    (he : current.evaluated = false) : Ready isEvaluated current := by
  induction h with
  | @intro base given current _ _ _ _ tracks modules untouched ih =>
    refine ⟨he, fun site hsite => ⟨?_, by simp [isEvaluated]⟩, fun site hsite hk => ?_⟩
    · obtain ⟨i, hi⟩ := List.mem_iff_getElem?.1 hsite
      intro hs
      cases (tracks.evaluating i site hi).1 hs
    · obtain ⟨i, hi⟩ := List.mem_iff_getElem?.1 hsite
      obtain ⟨old, hold, _⟩ := declared_eq_of_getElem? tracks.same hi
      have hfresh : Fresh old.module := by
        cases fresh with
        | intro _ _ _ _ imports => exact imports old (List.mem_of_getElem? hold)
      cases hp : paramsByName (fun _ => false) base given [] i old with
      | error e =>
        rw [untouched i old site ⟨hold, hi⟩ rfl e hp]
        exact hfresh.ready fun other hother => by simp [isEvaluated, hother]
      | ok params =>
        have hidle : site.module.evaluated = false := tracks.idle i site hi (by
          simpa [isEvaluated] using hk)
        exact ih i old site ⟨hold, hi⟩ rfl params hp hfresh hidle

/-- The imports that are evaluated hold what they are by name with the parameters of the past. -/
theorem Progress.body_eq (h : Progress kept base given current) {i : Nat}
    {site : Import (Module τ)} (hi : current.imports[i]? = some site)
    (hs : site.state = .evaluated) :
    bodyByName kept base given [] i = .ok site.module.resource.body? :=
  h.underway.tracks.evaluated i site hi hs [] (by intro j hj; cases hj)

end

/-- An evaluation with `later` that follows a failed one with `first`. What the failed one has
evaluated is used as it is, so that the outcome is that of a fresh module exactly if it makes no
difference by name. -/
theorem outcome_evaluate_retry (loaded : Loaded module) (convert : Converter (StateM σ) τ)
    (first later : Entries) (s s' : σ) {e : Failure} {left : Module τ}
    (failed : ((evaluate convert module first).run s).1 = (.error e, left)) :
    Progress (fun _ => false) module first left ∧
    (∀ (i : Nat) (site : Import (Module τ)), left.imports[i]? = some site →
      site.state = .evaluated →
        bodyByName (fun _ => false) module first [] i = .ok site.module.resource.body?) ∧
    outcome ((evaluate convert left later).run s').1 = callByName isEvaluated left later ∧
    (outcome ((evaluate convert left later).run s').1 =
        outcome ((evaluate convert module later).run s').1 ↔
      callByName isEvaluated left later = byName module later) := by
  have hachieves := evaluate_achieves convert module module first (loaded.ready.progress first) s
  rw [failed] at hachieves
  have hleft : Ready isEvaluated left :=
    hachieves.progress.ready loaded.fresh (hachieves.failed e rfl)
  refine ⟨hachieves.progress, fun i site hi hs => hachieves.progress.body_eq hi hs,
    hleft.outcome_evaluate convert later s', ?_⟩
  rw [hleft.outcome_evaluate convert later s', loaded.ready.outcome_evaluate convert later s']

/-- What a first attempt without `y` leaves of the pod. -/
def podLeft : Module Unit :=
  ((evaluate asUnit podModule [("x", .string "one")]).run ()).1.2

theorem outcome_evaluate_pod_retry :
    (Loaded podModule ∧ ((evaluate asUnit podModule [("x", .string "one")]).run ()).1 =
      (.error (.unknownIdentifier "y" "pod.yaml" []), podLeft)) ∧
    (let later := [("x", Value.string "two"), ("y", Value.string "end")]
    outcome ((evaluate asUnit podLeft later).run ()).1 = callByName isEvaluated podLeft later) :=
  ⟨⟨podModule_loaded, rfl⟩,
    (outcome_evaluate_retry podModule_loaded asUnit [("x", .string "one")]
      [("x", .string "two"), ("y", .string "end")] () () rfl).2.2.1⟩

/-- The import keeps the parameter of the first attempt. -/
theorem retry_differs : ¬ ∀ (module : Module Unit), Loaded module →
    ∀ (first later : Entries) (e : Failure) (left : Module Unit),
      ((evaluate asUnit module first).run ()).1 = (.error e, left) →
        outcome ((evaluate asUnit left later).run ()).1 =
          outcome ((evaluate asUnit module later).run ()).1 := by
  intro h
  have hsame := h podModule podModule_loaded [("x", .string "one")]
    [("x", .string "two"), ("y", .string "end")] (.unknownIdentifier "y" "pod.yaml" []) podLeft rfl
  have hretry : outcome ((evaluate asUnit podLeft
      [("x", .string "two"), ("y", .string "end")]).run ()).1 =
      .ok [("pod", .list [.string "one", .string "end"])] := rfl
  have hfresh : outcome ((evaluate asUnit podModule
      [("x", .string "two"), ("y", .string "end")]).run ()).1 =
      .ok [("pod", .list [.string "two", .string "end"])] := rfl
  rw [hretry, hfresh] at hsame
  simp at hsame

end ManifestModules.Module
