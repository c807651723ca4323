import ManifestModules.Proofs.Module.Cycles
import ManifestModules.Proofs.Module.Reordering

/-!
# What an import can reach

To evaluate one import of a module takes the imports that its parameter templates name, those that
these name, and so on. Nothing else in the module is touched, whatever was evaluated before and
whether or not the evaluation succeeds; and if it fails, the import itself is left unevaluated, with
the resource that it had.
-/

namespace ManifestModules.Module

open Template Relation

variable {σ τ α : Type}

section

variable (base : Module τ) (chain : List Nat) (i : Nat)

/-- Wherever the marks are right, a computation leaves the import at a position as it is. -/
def Spares (x : Scoped (StateM σ) τ α) : Prop :=
  ∀ imports s, Holds base chain imports → (exec x imports s).state[i]? = imports[i]?

def spares (σ : Type) : Property (StateT (List (Import (Module τ))) (StateM σ)) where
  Rel _ x _ := Upholds base chain x ∧ Spares base chain i x
  pure a := ⟨(upholds σ base chain).pure a, fun _ _ _ => rfl⟩
  bind {α β asked later x y f g} hx hf := by
    refine ⟨hx.1.bind fun a => (hf a).1, fun imports s h => ?_⟩
    have hspared := hx.2 imports s h
    have hupheld := hx.1 imports s h
    rcases hrun : exec x imports s with ⟨r, imports', s'⟩
    rw [hrun] at hspared hupheld
    cases r with
    | error e =>
      rw [exec_bind_error hrun]
      exact hspared
    | ok a =>
      rw [exec_bind_ok hrun]
      exact ((hf a).2 imports' s' hupheld.holds).trans hspared
  fillMismatch _ _ _ _ := ⟨(upholds σ base chain).fillMismatch [] _ _ _, fun _ _ _ => rfl⟩
  spreadMismatch _ _ _ := ⟨(upholds σ base chain).spreadMismatch [] _ _, fun _ _ _ => rfl⟩

end

section

variable {base : Module τ} {given : Entries} {chain : List Nat} {i : Nat}
  {demand : Nat → Scoped (StateM σ) τ Unit} {evaluators : List (Evaluator (StateM σ) τ)}
  {imports : List (Import (Module τ))} {index : Nat}

theorem spares_resolveIn {ident : String}
    (hdemand : ∀ j, Names base given (headOf ident) j → Spares base chain i (demand j)) :
    Spares base chain i (resolveIn (base.scopeWith given) demand ident) := by
  intro imports s h
  have hresolved := resolved (base.scopeWith given) demand ident imports s
  generalize exec (resolveIn _ demand ident) imports s = left at hresolved ⊢
  cases hresolved with
  | param | unknown => rfl
  | refused index noParam found hrun | answered index noParam found hrun =>
    rw [findIdx?_of_declared h.same] at found
    have hspared := hdemand index (names_of_findIdx? noParam found) imports s h
    rw [hrun] at hspared
    exact hspared

theorem spares_substituteEntries (templates : Entries)
    (hupholds : ∀ j, Upholds base chain (demand j))
    (hdemand : ∀ head ∈ heads templates, ∀ j, Names base given head j →
      Spares base chain i (demand j)) :
    Spares base chain i
      (substituteEntries (resolveIn (base.scopeWith given) demand) templates) :=
  ((spares base chain i σ).substituteEntries templates fun ident hident =>
    ⟨upholds_resolveIn hupholds ident,
      spares_resolveIn (hdemand (headOf ident) (List.mem_map_of_mem hident))⟩).2

theorem getElem?_mark (hi : i ≠ index) (imports : List (Import (Module τ)))
    (state : ImportState) : (mark imports index state)[i]? = imports[i]? := by
  simp [mark, Ne.symm hi]

theorem getElem?_store (hi : i ≠ index) (imports : List (Import (Module τ)))
    (module : Module τ) : (store imports index module)[i]? = imports[i]? := by
  simp [store, Ne.symm hi]

theorem exec_work_spared {x : Scoped (StateM σ) τ Entries} {evaluator : Evaluator (StateM σ) τ}
    (hi : i ≠ index) (s : σ) (h : (exec x imports s).state[i]? = imports[i]?) :
    (exec (x >>= Scoped.runEvaluator index evaluator) imports s).state[i]? = imports[i]? := by
  have hworked := worked x evaluator index imports s
  generalize exec (_ >>= _) imports s = left at hworked ⊢
  cases hworked with
  | refused hrun =>
    rw [hrun] at h
    exact h
  | @ran _ imports' _ _ _ _ hrun _ =>
    rw [hrun] at h
    exact (getElem?_store hi imports' _).trans h

theorem exec_whileEvaluating_spared {work : Scoped (StateM σ) τ Unit} (hi : i ≠ index) (s : σ)
    (h : (exec work (mark imports index .evaluating) s).state[i]? =
      (mark imports index .evaluating)[i]?) :
    (exec (Scoped.whileEvaluating index work) imports s).state[i]? = imports[i]? := by
  rw [getElem?_mark hi] at h
  rw [exec_whileEvaluating]
  exact (getElem?_mark hi _ _).trans h

/-- What an import that is not on the chain uses is demanded with the import on the chain. -/
theorem spares_params {old site : Import (Module τ)} {room : Nat}
    (hanswering : Answering base evaluators) (h : Holds base chain imports)
    (hb : Became base.imports imports index old site)
    (hused : ∀ j, Uses base given index j → Spares base (chain ++ [index]) i
      (demandImport (base.scopeWith given) evaluators room (chain ++ [index]) j)) :
    Spares base (chain ++ [index]) i (substituteEntries (resolveIn (base.scopeWith given)
      (demandImport (base.scopeWith given) evaluators room (chain ++ [index]))) site.params) := by
  refine spares_substituteEntries site.params (fun j => upholds_demandImport hanswering _ _ j)
    fun head hhead j hj => hused j ?_
  rw [h.params_eq hb] at hhead
  exact ⟨old, hb.old, head, hhead, hj⟩

/-- A demand spares the imports that are being evaluated, and those that it does not reach. -/
theorem spares_demandImport (hanswering : Answering base evaluators) (room : Nat)
    (hi : i ∈ chain ∨ ¬ ReflTransGen (Uses base given) index i) :
    Spares base chain i (demandImport (base.scopeWith given) evaluators room chain index) := by
  induction room generalizing chain index with
  | zero =>
    intro imports s h
    refine demandImport_cases (P := fun trace => trace.state[i]? = imports[i]?) hanswering h 0 s
      rfl (fun _ => rfl) fun old site evaluator hb he hs => ?_
    rw [demandImport, exec_visitImport_unevaluated s hb.new he hs,
      exec_bind_ok (exec_get imports s), exec_throw]
  | succ room ih =>
    intro imports s h
    refine demandImport_cases (P := fun trace => trace.state[i]? = imports[i]?) hanswering h
      (room + 1) s rfl (fun _ => rfl) fun old site evaluator hb he hs => ?_
    have hne : i ≠ index := by
      rintro rfl
      rcases hi with hchain | hreach
      · exact h.not_mem hb.new hs hchain
      · exact hreach .refl
    rw [exec_demandImport_unevaluated s hb.new he hs]
    refine exec_whileEvaluating_spared hne s (exec_work_spared hne s ?_)
    -- What is used has a longer chain and reaches no more, so that it spares no less.
    refine spares_params hanswering h hb (fun j hj => ih ?_) _ s (h.enter hb)
    rcases hi with hchain | hreach
    · exact .inl (List.mem_append_left _ hchain)
    · exact .inr fun hj' => hreach (.head hj hj')

/-- What the demand of an import makes of this import itself: it is evaluated, or it is as it was
but for the imports of its module. -/
inductive Tried (site site' : Import (Module τ)) : Except Failure Unit → Prop
  | ok (evaluated : site'.state = .evaluated) : Tried site site' (.ok ())
  | error (e : Failure) (state : site'.state = site.state)
    (module : site'.module = { site.module with imports := site'.module.imports }) :
    Tried site site' (.error e)

theorem evaluate_failed {convert : Converter (StateM σ) τ} {module left : Module τ} {s s' : σ}
    {e : Failure} (h : (evaluate convert module given).run s = ((.error e, left), s')) :
    left = { module with imports := left.imports } := by
  rcases Bool.eq_false_or_eq_true module.evaluated with he | he
  · rw [evaluate_evaluated he] at h
    cases h
  · rcases hfill : exec (fillOf convert module given) module.imports s with ⟨r, imports', s₁⟩
    cases r with
    | error e =>
      rw [evaluate_error he hfill] at h
      cases h
      rfl
    | ok raw =>
      rw [evaluate_ok he hfill] at h
      cases h

theorem tried_whileEvaluating {convert : Converter (StateM σ) τ} {site : Import (Module τ)}
    {x : Scoped (StateM σ) τ Entries} (hs : site.state = .unevaluated)
    (hsite : imports[index]? = some site) (s : σ)
    (hspared : (exec x (mark imports index .evaluating) s).state[index]? =
      (mark imports index .evaluating)[index]?) :
    let trace := exec (Scoped.whileEvaluating index
      (x >>= Scoped.runEvaluator index (evaluate convert site.module))) imports s
    ∃ site', trace.state[index]? = some site' ∧ Tried site site' trace.result := by
  rw [(Changed.mark .evaluating hsite).new] at hspared
  have hworked := worked x (evaluate convert site.module) index (mark imports index .evaluating) s
  rw [exec_whileEvaluating]
  generalize exec (_ >>= _) (mark imports index .evaluating) s = left at hworked ⊢
  cases hworked with
  | refused hrun =>
    rw [hrun] at hspared
    exact ⟨_, (Changed.mark .unevaluated hspared).new,
      .error _ hs.symm (with_imports_eq site.module rfl).symm⟩
  | @ran _ _ _ _ result module hrun hev =>
    rw [hrun] at hspared
    have hstored := (Changed.store module hspared).new
    refine ⟨_, (Changed.mark (stateAfter result) hstored).new, ?_⟩
    cases result with
    | ok a => exact .ok rfl
    | error e => exact .error e hs.symm (evaluate_failed hev)

theorem demandImport_tried {convert : Converter (StateM σ) τ} {site : Import (Module τ)}
    (hanswering : Answering base evaluators) (room : Nat) (h : Holds base chain imports)
    (hsite : imports[index]? = some site)
    (he : evaluators[index]? = some (evaluate convert site.module)) (s : σ) :
    let trace := exec (demandImport (base.scopeWith given) evaluators room chain index) imports s
    ∃ site', trace.state[index]? = some site' ∧ Tried site site' trace.result := by
  have hsame := (with_imports_eq site.module rfl).symm
  cases hs : site.state with
  | evaluated =>
    rw [exec_demandImport_evaluated s hsite hs]
    exact ⟨site, hsite, .ok hs⟩
  | evaluating =>
    rw [exec_demandImport_evaluating s hsite he hs]
    exact ⟨site, hsite, .error _ rfl hsame⟩
  | unevaluated =>
    cases room with
    | zero =>
      rw [demandImport, exec_visitImport_unevaluated s hsite he hs,
        exec_bind_ok (exec_get imports s), exec_throw]
      exact ⟨site, hsite, .error _ rfl hsame⟩
    | succ room =>
      obtain ⟨old, hold, _⟩ := declared_eq_of_getElem? h.same hsite
      have hb : Became base.imports imports index old site := ⟨hold, hsite⟩
      rw [exec_demandImport_unevaluated s hsite he hs]
      apply tried_whileEvaluating hs hsite s
      -- While its parameters are filled, the import is on the chain, and is spared itself.
      exact spares_params hanswering h hb
        (fun j _ => spares_demandImport hanswering room (.inl (by simp))) _ s (h.enter hb)

end

/-! ## Imports of modules in a tree -/

section

variable {base current : Module τ} {given : Entries} {place : List Nat}

theorem Consistent.at_place {inner : Module τ} (h : Consistent base current)
    (hinner : current.moduleAt? place = some inner) :
    ∃ old, base.moduleAt? place = some old ∧ Consistent old inner := by
  induction place generalizing base current with
  | nil =>
    cases hinner
    exact ⟨base, rfl, h⟩
  | cons index place ih =>
    obtain ⟨site, hsite, hinner⟩ := Option.bind_eq_some_iff.1 hinner
    obtain ⟨old, hold, _⟩ := declared_eq_of_getElem? h.holds.same hsite
    obtain ⟨found, hfound, hconsistent⟩ := ih (h.holds.modules index old site ⟨hold, hsite⟩) hinner
    exact ⟨found, by rw [moduleAt?, hold, Option.bind_some, hfound], hconsistent⟩

theorem Formed.at_place {inner : Module τ} (h : Formed base)
    (hinner : base.moduleAt? place = some inner) : Formed inner := by
  induction place generalizing base with
  | nil =>
    cases hinner
    exact h
  | cons index place ih =>
    obtain ⟨site, hsite, hinner⟩ := Option.bind_eq_some_iff.1 hinner
    cases h with
    | intro _ _ _ _ _ _ imports => exact ih (imports site (List.mem_of_getElem? hsite)) hinner

/-- What imports use is declared, and does not depend on what has been evaluated. -/
theorem Uses.of_declared {module module' : Module τ} {i j : Nat}
    (hsame : module'.imports.map declared = module.imports.map declared)
    (hparams : module'.effectiveParams given = module.effectiveParams given)
    (h : Uses module given i j) : Uses module' given i j := by
  obtain ⟨old, hold, head, hhead, hunbound, named, hnamed, rfl⟩ := h
  obtain ⟨site, hsite, hdeclared⟩ := declared_eq_of_getElem? hsame.symm hold
  obtain ⟨site', hsite', hdeclared'⟩ := declared_eq_of_getElem? hsame.symm hnamed
  refine ⟨site, hsite, named.name, ?_, ?_, site', hsite', congrArg Prod.fst hdeclared'⟩
  · rwa [show site.params = old.params from congrArg (·.2.2) hdeclared]
  · rwa [hparams]

theorem Consistent.effectiveParams_eq (h : Consistent base current) :
    current.effectiveParams given = base.effectiveParams given :=
  congrArg Scope.params h.scopeWith_eq

/-- What an evaluation of the import `name` leaves behind: only the imports of the importer may have
changed, and of these only those that the named one reaches. -/
structure Framed (importer : Module τ) (given : Entries) (name : String) (t : σ)
    (left : (Except Failure Unit × Module τ) × σ) : Prop where
  fields : left.1.2 = { importer with imports := left.1.2.imports }
  declared : left.1.2.imports.map declared = importer.imports.map declared
  unknown : name ∉ importer.imports.map (·.name) → ∃ e, left = ((.error e, importer), t)
  spared : ∀ (index : Nat) (site : Import (Module τ)), importer.imports[index]? = some site →
    site.name = name → ∀ i, ¬ ReflTransGen (Uses importer given) index i →
      left.1.2.imports[i]? = importer.imports[i]?
  named : ∀ (index : Nat) (site : Import (Module τ)), importer.imports[index]? = some site →
    site.name = name → ∃ site', left.1.2.imports[index]? = some site' ∧ Tried site site' left.1.1

theorem evaluateImport_framed (convert : Converter (StateM σ) τ) (h : Consistent base current)
    (hnodup : (current.imports.map (·.name)).Nodup) (given : Entries) (name : String) (t : σ) :
    Framed current given name t ((evaluateImport convert current given name).run t) := by
  have hfound {index : Nat} {site : Import (Module τ)} (hsite : current.imports[index]? = some site)
      (hname : site.name = name) : current.imports.findIdx? (·.name = name) = some index := by
    rw [findIdx?_eq_some_iff hnodup, List.getElem?_map, hsite, ← hname]
    rfl
  cases hi : current.imports.findIdx? (·.name = name) with
  | none =>
    have hnone {index : Nat} {site : Import (Module τ)}
        (hsite : current.imports[index]? = some site) (hname : site.name = name) : False := by
      cases hi.symm.trans (hfound hsite hname)
    rw [run_evaluateImport_unknown hi]
    exact ⟨(with_imports_eq current rfl).symm, rfl, fun _ => ⟨_, rfl⟩,
      fun _ _ hsite hname => (hnone hsite hname).elim,
      fun _ _ hsite hname => (hnone hsite hname).elim⟩
  | some found =>
    have hanswering := h.answering_imports convert
    have hupheld : Upheld base [] (exec (demandFirst (base.scopeWith given)
        (importEvaluators convert current.imports) found) current.imports t) :=
      upholds_demandImport hanswering _ [] found current.imports t h.holds
    have hsame {index : Nat} {site : Import (Module τ)}
        (hsite : current.imports[index]? = some site) (hname : site.name = name) :
        index = found := Option.some.inj ((hfound hsite hname).symm.trans hi)
    rw [run_evaluateImport hi, h.scopeWith_eq]
    refine ⟨rfl, hupheld.holds.same.trans h.holds.same.symm, fun hnew => ?_,
      fun index site hsite hname i hfar => ?_, fun index site hsite hname => ?_⟩
    · have hmem := List.mem_of_getElem? ((findIdx?_eq_some_iff hnodup name found).1 hi)
      exact absurd hmem hnew
    · obtain rfl := hsame hsite hname
      refine spares_demandImport hanswering _ (.inr fun hreach => hfar ?_) current.imports t h.holds
      exact ReflTransGen.mono (fun _ _ huses => huses.of_declared h.holds.same h.effectiveParams_eq)
        _ _ hreach
    · obtain rfl := hsame hsite hname
      have he : (importEvaluators convert current.imports)[index]? =
          some (evaluate convert site.module) := by
        rw [importEvaluators_eq_map, List.getElem?_map, hsite, Option.map_some]
      exact demandImport_tried hanswering _ h.holds hsite he t

end

/-- The evaluation of an import changes its importer only in the imports that it reaches. This holds
for any module in the tree of a loaded one, in every state that calls have left behind, and whether
or not the evaluation succeeds. -/
theorem evaluateImport_frame {module : Module τ} (loaded : Loaded module)
    (convert : Converter (StateM σ) τ) (before : List Call) (s : σ) {place : List Nat}
    {importer : Module τ}
    (reached : ((runCalls convert before module).run s).1.2.moduleAt? place = some importer)
    (given : Entries) (name : String) (t : σ) :
    Framed importer given name t ((evaluateImport convert importer given name).run t) := by
  obtain ⟨base, hbase, hconsistent⟩ :=
    (loaded.fresh.consistent.runCalls convert before s).1.at_place reached
  refine evaluateImport_framed convert hconsistent ?_ given name t
  rw [map_name_of_declared hconsistent.holds.same]
  exact (loaded.formed.at_place hbase).names_nodup

def deploymentFailed : Module Unit :=
  ((runCalls asUnit [.atRoot [] none] deploymentModule).run ()).1.2

example : deploymentFailed.imports.map (·.state) =
    [.unevaluated, .evaluated, .unevaluated, .unevaluated] := by decide +kernel

theorem deploymentFailed_consistent : Consistent deploymentModule deploymentFailed :=
  (deploymentModule_loaded.fresh.consistent.runCalls asUnit [.atRoot [] none] ()).1

/-- With a tag that is given, the import of the web server uses only the base. -/
theorem deploymentFailed_reaches {j : Nat}
    (h : ReflTransGen (Uses deploymentFailed [("tag", .string "1.0")]) 0 j) : j = 0 ∨ j = 1 := by
  have hheads : heads [("image", .string "${base.name}:${tag}")] = ["base", "tag"] := by
    decide +kernel
  have hnodup := deploymentModule_loaded.formed.names_nodup
  have hconsistent := deploymentFailed_consistent
  induction h with
  | refl => exact .inl rfl
  | tail _ huses ih =>
    obtain ⟨site, hsite, head, hhead, hnames⟩ :=
      huses.of_declared hconsistent.holds.same.symm hconsistent.effectiveParams_eq.symm
    rcases ih with rfl | rfl
    · cases hsite
      rw [deploymentImport, hheads] at hhead
      have hfind := findIdx?_of_names hnodup hnames
      rcases List.mem_pair.1 hhead with rfl | rfl
      · cases hfind
        exact .inr rfl
      · cases hnames.unbound
    · cases hsite
      cases hhead

theorem evaluateImport_frame_deployment :
    (Loaded deploymentModule ∧
      ((runCalls asUnit [.atRoot [] none] deploymentModule).run ()).1.2.moduleAt? [] =
        some deploymentFailed) ∧
    (let left := (evaluateImport asUnit deploymentFailed [("tag", .string "1.0")] "web").run ()
    Framed deploymentFailed [("tag", .string "1.0")] "web" () left ∧
      left.1.2.imports[3]? = deploymentFailed.imports[3]?) ∧
    Framed deploymentFailed [] "web" ()
      ((evaluateImport asUnit deploymentFailed [] "web").run ()) := by
  have hreached : ((runCalls asUnit [.atRoot [] none] deploymentModule).run ()).1.2.moduleAt? [] =
      some deploymentFailed := rfl
  have hframe (given : Entries) :=
    evaluateImport_frame deploymentModule_loaded asUnit _ () hreached given "web" ()
  have hweb : deploymentModule.imports[0]? = some _ := rfl
  obtain ⟨site, hsite, hdeclared⟩ :=
    declared_eq_of_getElem? deploymentFailed_consistent.holds.same.symm hweb
  refine ⟨⟨deploymentModule_loaded, hreached⟩, ⟨hframe _, ?_⟩, hframe []⟩
  refine (hframe _).spared 0 site hsite (congrArg Prod.fst hdeclared) 3 fun hreach => ?_
  rcases deploymentFailed_reaches hreach with h | h <;> cases h

end ManifestModules.Module
