import ManifestModules.Proofs.Module.Progress

/-!
# Evaluation agrees with evaluation by name

A run inside a module is compared with the family of its counterparts by name, one for each chain
that avoids the evaluated imports. A success agrees with all of them, a failure with the one for the
chain of the run. Substitution carries this from demands to templates, and induction over the tree
to whole modules.
-/

namespace ManifestModules.Module

open Template

variable {σ τ α β : Type}

section

variable (kept : Import (Module τ) → Bool) (base : Module τ) (given : Entries) (chain : List Nat)

/-- What a run has made of the imports, and how its result relates to results by name. -/
structure Agrees (imports : List (Import (Module τ)))
    (trace : Trace (List (Import (Module τ))) σ α) (byName : List Nat → Except Failure α) :
    Prop where
  underway : Underway kept base given chain trace.state
  grows : ∀ other, Unevaluated trace.state other → Unevaluated imports other
  ok : ∀ a, trace.result = .ok a → ∀ other, Unevaluated trace.state other → byName other = .ok a
  error : ∀ e, trace.result = .error e → byName chain = .error e

def Follows (x : Scoped (StateM σ) τ α) (byName : List Nat → ExceptT Failure Id α) : Prop :=
  ∀ imports s, Underway kept base given chain imports →
    Agrees kept base given chain imports (exec x imports s) fun other => (byName other).run.run

end

variable {kept : Import (Module τ) → Bool} {base : Module τ} {given : Entries} {chain : List Nat}

theorem Follows.result (r : Except Failure α) :
    Follows (σ := σ) kept base given chain (liftM r) fun _ => ExceptT.mk r := by
  intro imports s h
  cases r with
  | ok a =>
    exact ⟨h, fun _ hun => hun, fun _ ha _ _ => ha, fun _ he => (by cases he)⟩
  | error e =>
    exact ⟨h, fun _ hun => hun, fun _ ha => (by cases ha), fun _ he => he⟩

theorem Follows.bind {x : Scoped (StateM σ) τ α} {y : List Nat → ExceptT Failure Id α}
    {f : α → Scoped (StateM σ) τ β} {g : List Nat → α → ExceptT Failure Id β}
    (hx : Follows kept base given chain x y)
    (hf : ∀ a, Follows kept base given chain (f a) fun other => g other a) :
    Follows kept base given chain (x >>= f) fun other => y other >>= g other := by
  intro imports s h
  have hfirst := hx imports s h
  rcases hrun : exec x imports s with ⟨r, imports', s'⟩
  rw [hrun] at hfirst
  cases r with
  | error e =>
    rw [exec_bind_error hrun]
    refine ⟨hfirst.underway, hfirst.grows, fun _ ha => (by cases ha), ?_⟩
    rintro _ ⟨⟩
    have hy : y chain = throw e := hfirst.error e rfl
    simp only [hy]
    rfl
  | ok a =>
    rw [exec_bind_ok hrun]
    have hsecond := hf a imports' s' hfirst.underway
    have hy (other : List Nat) (hun : Unevaluated imports' other) : y other = pure a :=
      hfirst.ok a rfl other hun
    refine ⟨hsecond.underway, fun other hun => hfirst.grows other (hsecond.grows other hun), ?_, ?_⟩
    · intro b hb other hun
      simp only [hy other (hsecond.grows other hun), pure_bind]
      exact hsecond.ok b hb other hun
    · intro e he
      simp only [hy chain hfirst.underway.tracks.unevaluated, pure_bind]
      exact hsecond.error e he

def follows (σ : Type) (kept : Import (Module τ) → Bool) (base : Module τ) (given : Entries)
    (chain : List Nat) :
    Correspondence (StateT (List (Import (Module τ))) (StateM σ)) Id (List Nat) where
  Rel _ x byName := Follows kept base given chain x byName
  pure a := Follows.result (.ok a)
  bind := Follows.bind
  fillMismatch _ _ _ _ := Follows.result (.error _)
  spreadMismatch _ _ _ := Follows.result (.error _)

/-- A resolver follows its counterpart by name if the demands behind it do. -/
theorem follows_resolveIn {demand : Nat → Scoped (StateM σ) τ Unit}
    (hdemand : ∀ index, Follows kept base given chain (demandBody demand index)
      fun other => ExceptT.mk (bodyByName kept base given other index)) (ident : String) :
    Follows kept base given chain (resolveIn (base.scopeWith given) demand ident)
      fun other => answer (base.scopeWith given) base.imports
        (bodyByName kept base given other) ident := by
  simp only [answer]
  cases hp : (base.scopeWith given).params.lookup (splitIdent ident).1 with
  | some value =>
    rw [resolveIn_param hp]
    exact Follows.result _
  | none =>
    intro imports s h
    have hindex := findIdx?_of_declared h.tracks.same (splitIdent ident).1
    cases hi : base.imports.findIdx? (·.name = (splitIdent ident).1) with
    | none =>
      rw [exec_resolveIn_unknown s hp (hindex.trans hi), map_name_of_declared h.tracks.same]
      exact ⟨h, fun _ hun => hun, fun _ ha => (by cases ha), fun _ he => he⟩
    | some index =>
      rw [exec_resolveIn_import s hp (hindex.trans hi)]
      exact (hdemand index).bind (fun body => Follows.result
        (answerFrom (base.scopeWith given) ident (splitIdent ident).1 (splitIdent ident).2 body))
        imports s h

theorem follows_substituteEntries {demand : Nat → Scoped (StateM σ) τ Unit}
    (hdemand : ∀ index, Follows kept base given chain (demandBody demand index)
      fun other => ExceptT.mk (bodyByName kept base given other index)) (templates : Entries) :
    Follows kept base given chain
      (substituteEntries (resolveIn (base.scopeWith given) demand) templates)
      fun other => ExceptT.mk (filled (answer (base.scopeWith given) base.imports
        (bodyByName kept base given other)) templates) :=
  (follows σ kept base given chain).substituteEntries templates fun ident _ =>
    follows_resolveIn hdemand ident

def outcome (left : Except Failure Unit × Module τ) : Except Failure Entries :=
  left.1.map fun () => left.2.resource.raw

structure Achieves (kept : Import (Module τ) → Bool) (base : Module τ) (given : Entries)
    (left : Except Failure Unit × Module τ) : Prop where
  outcome : outcome left = callByName kept base given
  progress : Progress kept base given left.2
  failed : ∀ e, left.1 = .error e → left.2.evaluated = false

def Supplies (kept : Import (Module τ) → Bool) (base : Module τ) (given : Entries)
    (evaluators : List (Evaluator (StateM σ) τ)) : Prop :=
  ∀ (i : Nat) (old : Import (Module τ)), base.imports[i]? = some old →
    ∃ evaluator, evaluators[i]? = some evaluator ∧
      (kept old = false → ∀ params, paramsByName kept base given [] i old = .ok params →
        ∀ s, Achieves kept old.module params ((evaluator params).run s).1)

/-- What a demand of an import has led to. -/
structure Settles (kept : Import (Module τ) → Bool) (base : Module τ) (given : Entries)
    (chain : List Nat) (index : Nat) (imports : List (Import (Module τ)))
    (trace : Trace (List (Import (Module τ))) σ Unit) : Prop where
  underway : Underway kept base given chain trace.state
  grows : ∀ other, Unevaluated trace.state other → Unevaluated imports other
  evaluated : ∀ a, trace.result = .ok a → ∀ site, trace.state[index]? = some site →
    site.state = .evaluated
  error : ∀ e, trace.result = .error e → bodyByName kept base given chain index = .error e

section

variable {evaluators : List (Evaluator (StateM σ) τ)} {index : Nat} {old site : Import (Module τ)}
  {imports : List (Import (Module τ))}

theorem Settles.agrees {demand : Nat → Scoped (StateM σ) τ Unit} {s : σ}
    (h : Settles kept base given chain index imports (exec (demand index) imports s)) :
    Agrees kept base given chain imports (exec (demandBody demand index) imports s)
      fun other => bodyByName kept base given other index := by
  rcases hrun : exec (demand index) imports s with ⟨r, imports', s'⟩
  rw [hrun] at h
  cases r with
  | error e =>
    rw [exec_demandBody_error hrun]
    refine ⟨h.underway, h.grows, fun _ ha => (by cases ha), ?_⟩
    rintro _ ⟨⟩
    exact h.error e rfl
  | ok a =>
    rw [exec_demandBody_ok hrun]
    refine ⟨h.underway, h.grows, ?_, fun _ he => (by cases he)⟩
    rintro _ ⟨⟩ other hun
    cases hsite : imports'[index]? with
    | none =>
      rw [bodyAt, hsite, Option.bind_none]
      exact bodyByName_absent (getElem?_none_of_declared h.underway.tracks.same hsite)
    | some site =>
      rw [bodyAt, hsite, Option.bind_some]
      exact h.underway.tracks.evaluated index site hsite (h.evaluated a rfl site hsite) other hun

section

variable {imports' : List (Import (Module τ))} {site' : Import (Module τ)} {s : σ}
  (h : Underway kept base given (chain ++ [index]) imports')
  (hb : Became base.imports imports' index old site') (hc : index ∉ chain) (hk : kept old = false)
  (hgrows : ∀ other, Unevaluated imports' other → Unevaluated imports other)
include h hb hc hk hgrows

/-- The parameters of an import could not be filled. -/
theorem Settles.refused {e : Failure} (hfilled : filled (answer (base.scopeWith given) base.imports
      (bodyByName kept base given (chain ++ [index]))) old.params = .error e) :
    Settles kept base given chain index imports
      ⟨.error e, mark imports' index .unevaluated, s⟩ := by
  refine ⟨h.leave hb hc hk, ?_, fun _ ha => (by cases ha), ?_⟩
  · intro other hun
    exact hgrows other (hun.before (.mark _ hb.new) hb.new (h.isEvaluating hb.new))
  · rintro _ ⟨⟩
    rw [bodyByName_fresh hb.old hk hc, paramsByName, hfilled]
    rfl

/-- The module of an import was evaluated with its parameters. -/
theorem Settles.ran {params : Entries} {result : Except Failure Unit} {module : Module τ}
    (hf : FilledEverywhere kept base given imports' old.params params)
    (hachieves : Achieves kept old.module params (result, module)) :
    Settles kept base given chain index imports
      ⟨result, mark (store imports' index module) index (stateAfter result), s⟩ := by
  have hstored : Changed imports' (store imports' index module) index { site' with module } :=
    .store module hb.new
  have hmarked := Changed.mark (stateAfter result) hstored.new
  have hgrows (other : List Nat) (hun : Unevaluated _ other) : Unevaluated imports other :=
    hgrows other (hun.before (hstored.trans hmarked) hb.new (h.isEvaluating hb.new))
  cases result with
  | error e =>
    have hleft := h.fail hb hf hachieves.progress (hachieves.failed e rfl)
    refine ⟨hleft.leave ⟨hb.old, hstored.new⟩ hc hk, hgrows, fun _ ha => (by cases ha), ?_⟩
    rintro _ ⟨⟩
    have hchain : Unevaluated imports' chain := fun i hi =>
      h.tracks.unevaluated i (List.mem_append_left _ hi)
    rw [bodyByName_fresh hb.old hk hc, h.paramsByName_eq hf hchain]
    change (do let raw ← callByName kept old.module params; _) = _
    rw [← hachieves.outcome]
    rfl
  | ok a =>
    refine ⟨h.finish hb hc hk hf hachieves.progress hachieves.outcome.symm, hgrows, ?_,
      fun _ he => (by cases he)⟩
    intro _ _ now hnow
    cases hnow.symm.trans hmarked.new
    rfl

end

/-- The first demand of an import. -/
theorem settles_whileEvaluating {demand : Nat → Scoped (StateM σ) τ Unit}
    {evaluator : Evaluator (StateM σ) τ} (s : σ)
    (hdemand : ∀ i, Follows kept base given (chain ++ [index]) (demandBody demand i)
      fun other => ExceptT.mk (bodyByName kept base given other i))
    (h : Underway kept base given chain imports) (hb : Became base.imports imports index old site)
    (hs : site.state = .unevaluated) (hk : kept old = false)
    (hevaluator : ∀ params, paramsByName kept base given [] index old = .ok params →
      ∀ s, Achieves kept old.module params ((evaluator params).run s).1) :
    Settles kept base given chain index imports
      (exec (Scoped.whileEvaluating index
        (substituteEntries (resolveIn (base.scopeWith given) demand) old.params >>=
          Scoped.runEvaluator index evaluator)) imports s) := by
  have hc := h.tracks.not_mem hb.new hs
  have hfill := follows_substituteEntries hdemand old.params _ s (h.enter hb hs hk)
  obtain ⟨site', hb'⟩ := became_of_declared hfill.underway.tracks.same hb.old
  have hgrows (other : List Nat) (hun : Unevaluated _ other) : Unevaluated imports other :=
    (hfill.grows other hun).before (.mark _ hb.new) hb.new (by rw [hs]; simp)
  have hworked := worked (substituteEntries (resolveIn (base.scopeWith given) demand) old.params)
    evaluator index (mark imports index .evaluating) s
  rw [exec_whileEvaluating]
  generalize exec (_ >>= _) (mark imports index .evaluating) s = left at hworked ⊢
  cases hworked with
  | refused hrun =>
    rw [hrun] at hfill hb' hgrows
    exact .refused hfill.underway hb' hc hk hgrows (hfill.error _ rfl)
  | @ran params _ s' _ result module hrun hev =>
    rw [hrun] at hfill hb' hgrows
    have hf : FilledEverywhere kept base given _ old.params params := hfill.ok params rfl
    have hparams : paramsByName kept base given [] index old = .ok params :=
      hfill.underway.paramsByName_eq hf (by intro i hi; cases hi)
    have hachieves := hevaluator params hparams s'
    rw [hev] at hachieves
    exact .ran hfill.underway hb' hc hk hgrows hf hachieves

/-- Only the first demand of an import takes work. -/
theorem settles_of_first (hsupplies : Supplies kept base given evaluators)
    (h : Underway kept base given chain imports) (room : Nat) (s : σ)
    (hfirst : ∀ old site evaluator, Became base.imports imports index old site →
      evaluators[index]? = some evaluator → site.state = .unevaluated → kept old = false →
      Settles kept base given chain index imports
        (exec (demandImport (base.scopeWith given) evaluators room chain index) imports s)) :
    Settles kept base given chain index imports
      (exec (demandImport (base.scopeWith given) evaluators room chain index) imports s) := by
  cases hnew : imports[index]? with
  | none =>
    rw [exec_demandImport_absent s hnew]
    refine ⟨h, fun _ hun => hun, ?_, fun _ he => (by cases he)⟩
    intro _ _ site hsite
    rw [hnew] at hsite
    cases hsite
  | some site =>
    obtain ⟨old, hold, _⟩ := declared_eq_of_getElem? h.tracks.same hnew
    obtain ⟨evaluator, hevaluator, _⟩ := hsupplies index old hold
    cases hs : site.state with
    | evaluated =>
      rw [exec_demandImport_evaluated s hnew hs]
      refine ⟨h, fun _ hun => hun, ?_, fun _ he => (by cases he)⟩
      intro _ _ now hnow
      rw [hnew] at hnow
      cases hnow
      exact hs
    | evaluating =>
      have hk : kept old = false := by
        by_contra hkept
        have := h.tracks.exempt index old site ⟨hold, hnew⟩ (by simpa using hkept)
        rw [hs] at this
        cases this
      rw [exec_demandImport_evaluating s hnew hevaluator hs, demandCycle_of_declared h.tracks.same]
      refine ⟨h, fun _ hun => hun, fun _ ha => (by cases ha), ?_⟩
      rintro _ ⟨⟩
      exact bodyByName_cycle hold hk ((h.tracks.evaluating index site hnew).1 hs)
    | unevaluated =>
      have hk : kept old = false := by
        by_contra hkept
        have := h.tracks.exempt index old site ⟨hold, hnew⟩ (by simpa using hkept)
        rw [hs] at this
        cases this
      exact hfirst old site evaluator ⟨hold, hnew⟩ hevaluator hs hk

/-- Every demand is settled: the chain leaves room for all imports that can still be entered. -/
theorem settles_demandImport (hsupplies : Supplies kept base given evaluators) {room : Nat}
    (hroom : Module.room base.imports.length chain ≤ room)
    (h : Underway kept base given chain imports) (s : σ) :
    Settles kept base given chain index imports
      (exec (demandImport (base.scopeWith given) evaluators room chain index) imports s) := by
  induction room generalizing chain index imports s with
  | zero =>
    refine settles_of_first hsupplies h 0 s fun old site evaluator hb _ hs _ => ?_
    have hlt := room_append_lt (List.getElem?_eq_some_iff.1 hb.old).1 (h.tracks.not_mem hb.new hs)
    omega
  | succ room ih =>
    refine settles_of_first hsupplies h (room + 1) s fun old site evaluator hb he hs hk => ?_
    have hlt := room_append_lt (List.getElem?_eq_some_iff.1 hb.old).1 (h.tracks.not_mem hb.new hs)
    obtain ⟨supplied, hsupplied, hachieves⟩ := hsupplies index old hb.old
    rw [he] at hsupplied
    cases hsupplied
    rw [exec_demandImport_unevaluated s hb.new he hs, h.tracks.params_eq hb]
    refine settles_whileEvaluating s (fun i imports s h' => ?_) h hb hs hk (hachieves hk)
    exact (ih (by omega) h' s).agrees

end

section

variable {convert : Converter (StateM σ) τ} {current : Module τ}

theorem Progress.scope_eq (h : Progress kept base given current) :
    current.scopeWith given = base.scopeWith given := by
  cases h with
  | intro path params _ _ _ _ _ =>
    simp only [scopeWith, effectiveParams, defaults, path, params]

theorem Progress.supplies (h : Progress kept base given current)
    (hmodules : ∀ site ∈ current.imports, ∀ old params, Progress kept old params site.module →
      ∀ s, Achieves kept old params ((evaluate convert site.module params).run s).1) :
    Supplies kept base given (importEvaluators convert current.imports) := by
  intro i old hold
  obtain ⟨site, hb⟩ := became_of_declared h.underway.tracks.same hold
  refine ⟨evaluate convert site.module, ?_, ?_⟩
  · rw [importEvaluators_eq_map, List.getElem?_map, hb.new, Option.map_some]
  · intro hk params hparams s
    exact hmodules site (List.mem_of_getElem? hb.new) old.module params
      (h.underway.modules i old site hb hk params hparams) s

theorem Progress.settles_demandFirst (h : Progress kept base given current)
    (hsupplies : Supplies kept base given (importEvaluators convert current.imports))
    {imports : List (Import (Module τ))} (hu : Underway kept base given [] imports) (index : Nat)
    (s : σ) : Settles kept base given [] index imports
      (exec (demandFirst (base.scopeWith given) (importEvaluators convert current.imports) index)
        imports s) := by
  refine settles_demandImport hsupplies ?_ hu s
  have hlength := congrArg List.length h.underway.tracks.same
  simp only [List.length_map] at hlength
  simp only [room_nil, importEvaluators_eq_map, List.length_map, hlength]
  exact Nat.le_refl _

theorem Progress.with_imports {imports : List (Import (Module τ))}
    (h : Progress kept base given current) (hu : Underway kept base given [] imports) :
    Progress kept base given { current with imports } := by
  cases h with
  | intro path params pending done _ _ _ =>
    exact ⟨path, params, pending, done, hu.tracks, hu.modules, hu.untouched⟩

/-- What is left of the evaluation is filled as by name. -/
theorem Progress.agrees_fillOf {convert : Converter (StateM σ) τ} {current : Module τ}
    (h : Progress kept base given current) (he : current.evaluated = false)
    (hsupplies : Supplies kept base given (importEvaluators convert current.imports)) (s : σ) :
    Agrees kept base given [] current.imports
      (exec (fillOf convert current given) current.imports s)
      fun other => filled (answer (base.scopeWith given) base.imports
        (bodyByName kept base given other)) base.resource.raw := by
  have hraw : current.resource.raw = base.resource.raw := by
    cases h with
    | intro _ _ pending _ _ _ _ => exact pending he
  rw [fillOf, fillResource, hraw, h.scope_eq]
  exact follows_substituteEntries
    (fun index imports s hu => (h.settles_demandFirst hsupplies hu index s).agrees)
    base.resource.raw current.imports s h.underway

/-- An evaluation has the outcome of the evaluation by name, whatever progress has been made with
the same parameters, and makes further progress. -/
theorem evaluate_achieves (convert : Converter (StateM σ) τ) (current : Module τ) :
    ∀ (base : Module τ) (given : Entries), Progress kept base given current → ∀ s,
      Achieves kept base given ((evaluate convert current given).run s).1 := by
  induction current using Module.induction with
  | step current ih =>
    intro base given h s
    cases he : current.evaluated with
    | true =>
      rw [evaluate_evaluated he]
      refine ⟨?_, h, fun _ he' => (by cases he')⟩
      cases h with
      | intro _ _ _ done _ _ _ => exact (done he).symm
    | false =>
      have hsupplies := h.supplies fun site hsite old params hp s =>
        ih site hsite old params hp s
      have hfill := h.agrees_fillOf he hsupplies s
      rcases hrun : exec (fillOf convert current given) current.imports s with ⟨r, imports', s'⟩
      rw [hrun] at hfill
      cases r with
      | error e =>
        rw [evaluate_error he hrun]
        refine ⟨?_, h.with_imports hfill.underway, fun _ _ => he⟩
        rw [callByName_eq]
        exact (hfill.error e rfl).symm
      | ok raw =>
        rw [evaluate_ok he hrun]
        have hcall : callByName kept base given = .ok raw := by
          rw [callByName_eq]
          exact hfill.ok raw rfl [] (by intro i hi; cases hi)
        refine ⟨hcall.symm, ?_, fun _ he' => (by cases he')⟩
        cases h with
        | intro path params _ _ _ _ _ =>
          exact ⟨path, params, fun he' => (by cases he'), fun _ => hcall, hfill.underway.tracks,
            hfill.underway.modules, hfill.underway.untouched⟩

/-- To evaluate one import is progress of the same kind. -/
theorem evaluateImport_progress (convert : Converter (StateM σ) τ)
    (h : Progress kept base given current) (name : String) (s : σ) :
    Progress kept base given ((evaluateImport convert current given name).run s).1.2 := by
  cases hi : current.imports.findIdx? (·.name = name) with
  | none =>
    rw [run_evaluateImport_unknown hi]
    exact h
  | some index =>
    rw [run_evaluateImport hi, h.scope_eq]
    have hsupplies : Supplies kept base given (importEvaluators convert current.imports) :=
      h.supplies fun site _ old params hp s => evaluate_achieves convert site.module old params hp s
    exact h.with_imports (h.settles_demandFirst hsupplies h.underway index s).underway

end

end ManifestModules.Module
