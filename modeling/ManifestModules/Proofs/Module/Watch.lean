import ManifestModules.Proofs.Module.Consistent

/-!
# Watched evaluations

An evaluation that is watched sounds an alarm as soon as its chain and the marks in the tree
disagree, when it meets a marked import that is not on its chain, and when its room is used up.
The alarm may do anything, fail or change the tree. That it makes no difference which alarm there is
means that it is never heard.
-/

namespace ManifestModules.Module

open Template

variable {m : Type → Type} [Monad m] {σ τ α : Type}

def stateAt? (imports : List (Import (Module τ))) (i : Nat) : Option ImportState :=
  imports[i]?.map (·.state)

/-- The chain has no import twice and holds exactly those that are marked as being evaluated. -/
def Agreed (imports : List (Import (Module τ))) (chain : List Nat) : Prop :=
  chain.Nodup ∧ (∀ i ∈ chain, stateAt? imports i = some .evaluating) ∧
    ∀ i < imports.length, stateAt? imports i = some .evaluating → i ∈ chain

instance (imports : List (Import (Module τ))) (chain : List Nat) :
    Decidable (Agreed imports chain) :=
  inferInstanceAs (Decidable (_ ∧ _ ∧ _))

section

variable (alarm : StateT (List (Import (Module τ))) m Unit)

/-- Sounds the alarm unless the chain agrees with the marks. -/
def check (chain : List Nat) : StateT (List (Import (Module τ))) m Unit := do
  if Agreed (← get) chain then return () else alarm

def guarded (chain : List Nat) (work : Scoped m τ α) : Scoped m τ α :=
  ExceptT.mk do
    check alarm chain
    let result ← work.run
    check alarm chain
    return result

def checkOn (chain : List Nat) (index : Nat) : Scoped m τ Unit := do
  if stateAt? (← get) index = some .evaluating ∧ index ∉ chain then alarm

/-- Demands an import as `demandImport` does. -/
def watchDemand (scope : Scope) (evaluators : List (Evaluator m τ)) :
    (room : Nat) → (chain : List Nat) → Nat → Scoped m τ Unit
  | 0, chain, index =>
    guarded alarm chain do
      checkOn alarm chain index
      visitImport scope evaluators chain index fun _ _ => alarm
  | room + 1, chain, index =>
    guarded alarm chain do
      checkOn alarm chain index
      visitImport scope evaluators chain index fun site evaluator =>
        Scoped.whileEvaluating index <| guarded alarm (chain ++ [index]) do
          let demand := watchDemand scope evaluators room (chain ++ [index])
          let params ← substituteEntries (resolveIn scope demand) site.params
          Scoped.runEvaluator index evaluator params

def watchFirst (scope : Scope) (evaluators : List (Evaluator m τ)) (index : Nat) :
    Scoped m τ Unit :=
  watchDemand alarm scope evaluators evaluators.length [] index

mutual

def watchEvaluate (convert : Converter m τ) : Module τ → Evaluator m τ
  | ⟨path, imports, params, evaluated, resource, diagnostics⟩ =>
    let evaluators := watchEvaluators convert imports
    fun given => do
      let module : Module τ := ⟨path, imports, params, evaluated, resource, diagnostics⟩
      if evaluated then return (.ok (), module)
      let scope : Scope := ⟨path, module.effectiveParams given⟩
      let fill := substituteEntries (resolveIn scope (watchFirst alarm scope evaluators))
        resource.raw
      let (result, imports) ← (guarded alarm [] fill).run.run imports
      match result with
      | .error failure => return (.error failure, { module with imports })
      | .ok raw =>
        let typed ← convertResource convert path raw
        return (.ok (), { module with imports, resource := ⟨raw, some typed⟩, evaluated := true })

def watchEvaluators (convert : Converter m τ) :
    List (Import (Module τ)) → List (Evaluator m τ)
  | [] => []
  | ⟨_, _, _, _, module⟩ :: rest => watchEvaluate convert module :: watchEvaluators convert rest

end

def watchImport (convert : Converter m τ) (module : Module τ) (given : Entries) (name : String) :
    m (Except Failure Unit × Module τ) :=
  match module.imports.findIdx? (·.name = name) with
  | none =>
    let names := module.imports.map (·.name)
    return (.error (.unknownIdentifier name module.path (similarNames name names)), module)
  | some index =>
    let scope : Scope := ⟨module.path, module.effectiveParams given⟩
    module.inScope (watchFirst alarm scope (watchEvaluators alarm convert module.imports) index)

def Call.watch (convert : Converter m τ) (call : Call) (module : Module τ) :
    m (Except Failure Unit × Module τ) :=
  descend (fun target => match call.name with
    | none => watchEvaluate alarm convert target call.given
    | some name => watchImport alarm convert target call.given name) call.place module

end

section

variable {base : Module τ} {chain : List Nat} {imports : List (Import (Module τ))}
  {site : Import (Module τ)} {index : Nat}

theorem stateAt?_eq_some {i : Nat} {state : ImportState} :
    stateAt? imports i = some state ↔ ∃ site, imports[i]? = some site ∧ site.state = state := by
  rw [stateAt?, Option.map_eq_some_iff]

/-- Where the marks are right, nothing is wrong. -/
theorem Marked.agreed (h : Marked base chain imports) (hproper : Proper base chain) :
    Agreed imports chain := by
  refine ⟨hproper.nodup, fun i hi => ?_, fun i _ hs => ?_⟩
  · obtain ⟨site, hb⟩ :=
      became_of_declared h.same (List.getElem?_eq_getElem (hproper.bounded i hi))
    exact stateAt?_eq_some.2 ⟨site, hb.new, (h.evaluating i site hb.new).2 hi⟩
  · obtain ⟨site, hsite, hs⟩ := stateAt?_eq_some.1 hs
    exact (h.evaluating i site hsite).1 hs

theorem Marked.on_chain (h : Marked base chain imports) :
    ¬ (stateAt? imports index = some .evaluating ∧ index ∉ chain) := by
  rintro ⟨hs, hc⟩
  obtain ⟨site, hsite, hs⟩ := stateAt?_eq_some.1 hs
  exact hc ((h.evaluating index site hsite).1 hs)

end

section

variable {alarm : StateT (List (Import (Module τ))) (StateM σ) Unit} {base : Module τ}
  {chain : List Nat} {imports : List (Import (Module τ))} {index : Nat} {s : σ}

theorem run_check (h : Agreed imports chain) :
    ((check alarm chain).run imports).run s = (((), imports), s) := by
  change ((if Agreed imports chain then pure () else alarm).run imports).run s = _
  rw [if_pos h]
  rfl

theorem exec_guarded {work : Scoped (StateM σ) τ α} {trace : Trace (List (Import (Module τ))) σ α}
    (h : Agreed imports chain) (hrun : exec work imports s = trace)
    (h' : Agreed trace.state chain) : exec (guarded alarm chain work) imports s = trace := by
  rcases trace with ⟨r, imports', s'⟩
  have hbefore : ((check alarm chain).run imports).run s = (((), imports), s) := run_check h
  have hafter : ((check alarm chain).run imports').run s' = (((), imports'), s') := run_check h'
  have hwork := run_of_exec hrun
  simp only [exec, guarded, ExceptT.run_mk, StateT.run_bind]
  simp only [bind, hbefore, hwork, hafter]
  rfl

/-- What goes on with an import matters only if the import is not evaluated yet. -/
theorem exec_visitImport_congr {scope : Scope} {evaluators : List (Evaluator (StateM σ) τ)}
    {go go' : Import (Module τ) → Evaluator (StateM σ) τ → Scoped (StateM σ) τ Unit}
    (h : ∀ site evaluator, imports[index]? = some site → evaluators[index]? = some evaluator →
      site.state = .unevaluated → exec (go' site evaluator) imports s =
        exec (go site evaluator) imports s) :
    exec (visitImport scope evaluators chain index go') imports s =
      exec (visitImport scope evaluators chain index go) imports s := by
  cases hi : imports[index]? with
  | none => rw [exec_visitImport_absent s hi, exec_visitImport_absent s hi]
  | some site =>
    cases he : evaluators[index]? with
    | none =>
      refine (exec_bind_ok (exec_get imports s)).trans ?_
      refine Eq.trans ?_ (exec_bind_ok (exec_get imports s)).symm
      simp only [hi, he]
    | some evaluator =>
      cases hs : site.state with
      | evaluated => rw [exec_visitImport_evaluated s hi hs, exec_visitImport_evaluated s hi hs]
      | evaluating =>
        rw [exec_visitImport_evaluating s hi he hs, exec_visitImport_evaluating s hi he hs]
      | unevaluated =>
        rw [exec_visitImport_unevaluated s hi he hs, exec_visitImport_unevaluated s hi he hs]
        exact h site evaluator hi he hs

theorem exec_whileEvaluating_congr {work work' : Scoped (StateM σ) τ Unit}
    (h : exec work' (mark imports index .evaluating) s =
      exec work (mark imports index .evaluating) s) :
    exec (Scoped.whileEvaluating index work') imports s =
      exec (Scoped.whileEvaluating index work) imports s := by
  rw [exec_whileEvaluating, exec_whileEvaluating, h]

variable (base chain) in
/-- Two computations cannot be told apart where the marks are right, and they keep them right. -/
def Indistinct (x y : Scoped (StateM σ) τ α) : Prop :=
  Upholds base chain x ∧ ∀ imports s, Holds base chain imports → exec y imports s = exec x imports s

def indistinct (σ : Type) (base : Module τ) (chain : List Nat) :
    Correspondence (StateT (List (Import (Module τ))) (StateM σ))
      (StateT (List (Import (Module τ))) (StateM σ)) Unit where
  Rel _ x y := Indistinct base chain x (y ())
  pure a := ⟨(upholds σ base chain).pure a, fun _ _ _ => rfl⟩
  bind {α β asked later x y f g} hx hf := by
    refine ⟨hx.1.bind fun a => (hf a).1, fun imports s h => ?_⟩
    have hsame := hx.2 imports s h
    have hupheld := hx.1 imports s h
    rcases hrun : exec x imports s with ⟨r, imports', s'⟩
    rw [hrun] at hsame hupheld
    cases r with
    | error e => rw [exec_bind_error hsame, exec_bind_error hrun]
    | ok a =>
      rw [exec_bind_ok hsame, exec_bind_ok hrun]
      exact (hf a).2 imports' s' hupheld.holds
  fillMismatch _ _ _ _ := ⟨(upholds σ base chain).fillMismatch [] _ _ _, fun _ _ _ => rfl⟩
  spreadMismatch _ _ _ := ⟨(upholds σ base chain).spreadMismatch [] _ _, fun _ _ _ => rfl⟩

theorem indistinct_resolveIn {scope : Scope} {demand demand' : Nat → Scoped (StateM σ) τ Unit}
    (h : ∀ i, Indistinct base chain (demand i) (demand' i)) (ident : String) :
    Indistinct base chain (resolveIn scope demand ident) (resolveIn scope demand' ident) := by
  refine ⟨upholds_resolveIn (fun i => (h i).1) ident, fun imports s hholds => ?_⟩
  cases hp : scope.params.lookup (splitIdent ident).1 with
  | some value => rw [resolveIn_param hp, resolveIn_param hp]
  | none =>
    cases hi : imports.findIdx? (·.name = (splitIdent ident).1) with
    | none => rw [exec_resolveIn_unknown s hp hi, exec_resolveIn_unknown s hp hi]
    | some i =>
      rw [exec_resolveIn_import s hp hi, exec_resolveIn_import s hp hi]
      have hsame := (h i).2 imports s hholds
      rcases hrun : exec (demand i) imports s with ⟨r, imports', s'⟩
      rw [hrun] at hsame
      cases r with
      | error e =>
        rw [exec_bind_error (exec_demandBody_error hsame),
          exec_bind_error (exec_demandBody_error hrun)]
      | ok a =>
        rw [exec_bind_ok (exec_demandBody_ok hsame), exec_bind_ok (exec_demandBody_ok hrun)]

theorem indistinct_substituteEntries {scope : Scope}
    {demand demand' : Nat → Scoped (StateM σ) τ Unit}
    (h : ∀ i, Indistinct base chain (demand i) (demand' i)) (templates : Entries) :
    Indistinct base chain (substituteEntries (resolveIn scope demand) templates)
      (substituteEntries (resolveIn scope demand') templates) := by
  have hresolve (ident : String) : (indistinct σ base chain).Rel [ident]
      (resolveIn scope demand ident) fun _ => resolveIn scope demand' ident :=
    indistinct_resolveIn h ident
  exact (indistinct σ base chain).substituteEntries templates fun ident _ => hresolve ident

/-- Where the marks are right, a marked import is found on the chain. -/
theorem exec_checkOn (h : Marked base chain imports) :
    exec (checkOn alarm chain index) imports s = ⟨.ok (), imports, s⟩ := by
  refine (exec_bind_ok (exec_get imports s)).trans ?_
  rw [if_neg h.on_chain, exec_pure]

theorem exec_guarded_work {scope : Scope} {demand demand' : Nat → Scoped (StateM σ) τ Unit}
    {evaluator : Evaluator (StateM σ) τ} {old site : Import (Module τ)} (templates : Entries)
    (hdemand : ∀ i, Indistinct base (chain ++ [index]) (demand i) (demand' i))
    (hevaluator : ∀ params s, Answered old.module ((evaluator params).run s).1)
    (h : Holds base chain imports) (hb : Became base.imports imports index old site)
    (hproper : Proper base (chain ++ [index])) :
    exec (guarded alarm (chain ++ [index])
      (substituteEntries (resolveIn scope demand') templates >>=
        Scoped.runEvaluator index evaluator)) (mark imports index .evaluating) s =
      exec (substituteEntries (resolveIn scope demand) templates >>=
        Scoped.runEvaluator index evaluator) (mark imports index .evaluating) s := by
  have hentered := h.enter hb
  have hfill : Indistinct base (chain ++ [index])
      (substituteEntries (resolveIn scope demand) templates) _ :=
    indistinct_substituteEntries hdemand templates
  have hsame := hfill.2 _ s hentered
  have hupheld := (upheld_work scope templates s (fun i => (hdemand i).1) hevaluator h hb).1
  rcases hwork : exec (substituteEntries (resolveIn scope demand) templates >>=
    Scoped.runEvaluator index evaluator) (mark imports index .evaluating) s with ⟨r, imports', s'⟩
  rw [hwork] at hupheld
  refine exec_guarded (hentered.agreed hproper) (Eq.trans ?_ hwork) (hupheld.holds.agreed hproper)
  rcases hrun : exec (substituteEntries (resolveIn scope demand) templates)
    (mark imports index .evaluating) s with ⟨r, imports', s'⟩
  rw [hrun] at hsame
  cases r with
  | error e => rw [exec_bind_error hsame, exec_bind_error hrun]
  | ok params => rw [exec_bind_ok hsame, exec_bind_ok hrun]

/-- The checks before and after a demand find nothing. -/
theorem indistinct_guarded {x y : Scoped (StateM σ) τ Unit} (hproper : Proper base chain)
    (hupholds : Upholds base chain x)
    (hsame : ∀ imports s, Holds base chain imports → exec y imports s = exec x imports s) :
    Indistinct base chain x (guarded alarm chain do checkOn alarm chain index; y) := by
  refine ⟨hupholds, fun imports s h => ?_⟩
  refine exec_guarded (h.agreed hproper) ?_ ((hupholds imports s h).holds.agreed hproper)
  rw [exec_bind_ok (exec_checkOn h.toMarked)]
  exact hsame imports s h

/-- No demand sounds the alarm. -/
theorem indistinct_watchDemand {scope : Scope} {evaluators : List (Evaluator (StateM σ) τ)}
    (hevaluators : Answering base evaluators) {room : Nat} (hproper : Proper base chain)
    (hroom : Module.room base.imports.length chain ≤ room) (index : Nat) :
    Indistinct base chain (demandImport scope evaluators room chain index)
      (watchDemand alarm scope evaluators room chain index) := by
  induction room generalizing chain index with
  | zero =>
    refine indistinct_guarded hproper (upholds_demandImport hevaluators 0 chain index)
      fun imports s h => exec_visitImport_congr fun site evaluator hi he hs => ?_
    obtain ⟨old, hold, _⟩ := declared_eq_of_getElem? h.same hi
    have hlt := room_append_lt (List.getElem?_eq_some_iff.1 hold).1 (h.not_mem hi hs)
    omega
  | succ room ih =>
    refine indistinct_guarded hproper (upholds_demandImport hevaluators (room + 1) chain index)
      fun imports s h => exec_visitImport_congr fun site evaluator hi he hs => ?_
    obtain ⟨old, hold, _⟩ := declared_eq_of_getElem? h.same hi
    have hbound := (List.getElem?_eq_some_iff.1 hold).1
    have hc := h.not_mem hi hs
    have hlt := room_append_lt hbound hc
    obtain ⟨supplied, hsupplied, hanswered⟩ := hevaluators index old hold
    cases he.symm.trans hsupplied
    have hinner := hproper.append hbound hc
    exact exec_whileEvaluating_congr (exec_guarded_work site.params
      (fun i => ih hinner (by omega) i) hanswered h ⟨hold, hi⟩ hinner)

end

section

variable {alarm : StateT (List (Import (Module τ))) (StateM σ) Unit}
  {convert : Converter (StateM σ) τ}

theorem watchEvaluators_eq_map (imports : List (Import (Module τ))) :
    watchEvaluators alarm convert imports =
      imports.map fun site => watchEvaluate alarm convert site.module := by
  induction imports with
  | nil => rfl
  | cons site rest ih =>
    rcases site with ⟨name, path, params, state, module⟩
    rw [watchEvaluators, ih, List.map_cons]

variable (alarm) in
abbrev watchFill (convert : Converter (StateM σ) τ) (module : Module τ) (given : Entries) :
    Scoped (StateM σ) τ Entries :=
  guarded alarm [] (substituteEntries (resolveIn (module.scopeWith given)
    (watchFirst alarm (module.scopeWith given) (watchEvaluators alarm convert module.imports)))
    module.resource.raw)

theorem watchEvaluate_eq {module : Module τ} {given : Entries} {s : σ}
    (hfill : exec (watchFill alarm convert module given) module.imports s =
      exec (fillOf convert module given) module.imports s) :
    (watchEvaluate alarm convert module given).run s = (evaluate convert module given).run s := by
  rcases module with ⟨path, imports, params, evaluated, resource, diagnostics⟩
  rcases hrun : exec (fillOf convert
    ⟨path, imports, params, evaluated, resource, diagnostics⟩ given) imports s
    with ⟨r, imports', s'⟩
  rw [hrun] at hfill
  have hplain := run_of_exec hrun
  have hwatched := run_of_exec hfill
  cases evaluated with
  | true => simp only [evaluate, watchEvaluate, if_true]
  | false =>
    simp only [evaluate, watchEvaluate, Bool.false_eq_true, if_false, StateT.run_bind]
    simp only [fillOf, watchFill, scopeWith] at hplain hwatched
    simp only [bind, hplain, hwatched]
    rfl

/-- The evaluators have room for all imports. -/
theorem Consistent.room_le {base current : Module τ} (h : Consistent base current)
    (convert : Converter (StateM σ) τ) :
    room base.imports.length [] ≤ (importEvaluators convert current.imports).length := by
  have hlength := congrArg List.length h.holds.same
  rw [List.length_map, List.length_map] at hlength
  rw [room_nil, importEvaluators_eq_map, List.length_map]
  exact Nat.le_of_eq hlength.symm

theorem Consistent.indistinct_watchFirst {base current : Module τ} (h : Consistent base current)
    (alarm : StateT (List (Import (Module τ))) (StateM σ) Unit) (convert : Converter (StateM σ) τ)
    (scope : Scope) (index : Nat) :
    Indistinct base [] (demandFirst scope (importEvaluators convert current.imports) index)
      (watchFirst alarm scope (importEvaluators convert current.imports) index) :=
  indistinct_watchDemand (h.answering_imports convert) .nil (h.room_le convert) index

theorem Consistent.watchEvaluators_eq {base current : Module τ} (h : Consistent base current)
    (hmodules : ∀ site ∈ current.imports, ∀ old, Consistent old site.module → ∀ params s,
      (watchEvaluate alarm convert site.module params).run s =
        (evaluate convert site.module params).run s) :
    watchEvaluators alarm convert current.imports = importEvaluators convert current.imports := by
  rw [watchEvaluators_eq_map, importEvaluators_eq_map]
  refine List.map_congr_left fun site hsite => ?_
  obtain ⟨i, hi⟩ := List.mem_iff_getElem?.1 hsite
  obtain ⟨old, hold, _⟩ := declared_eq_of_getElem? h.holds.same hi
  funext params
  refine funext fun s => ?_
  exact hmodules site hsite old.module (h.holds.modules i old site ⟨hold, hi⟩) params s

/-- An evaluation of a consistent module never sounds the alarm. -/
theorem run_watchEvaluate (current : Module τ) : ∀ base, Consistent base current → ∀ given s,
    (watchEvaluate alarm convert current given).run s = (evaluate convert current given).run s := by
  induction current using Module.induction with
  | step current ih =>
    intro base h given s
    obtain ⟨hupholds, hsame⟩ := indistinct_substituteEntries
      (h.indistinct_watchFirst alarm convert (current.scopeWith given)) current.resource.raw
    refine watchEvaluate_eq (exec_guarded (h.holds.agreed .nil) ?_ ?_)
    · rw [h.watchEvaluators_eq ih]
      exact hsame current.imports s h.holds
    · exact (hupholds current.imports s h.holds).holds.agreed .nil

theorem run_watchImport {base current : Module τ} (h : Consistent base current) (given : Entries)
    (name : String) (s : σ) :
    (watchImport alarm convert current given name).run s =
      (evaluateImport convert current given name).run s := by
  cases hi : current.imports.findIdx? (·.name = name) with
  | none =>
    rw [run_evaluateImport_unknown hi]
    simp only [watchImport, hi]
    rfl
  | some index =>
    have hsame := (h.indistinct_watchFirst alarm convert (current.scopeWith given) index).2
      current.imports s h.holds
    rw [run_evaluateImport hi, ← hsame]
    simp only [watchImport, hi]
    rw [h.watchEvaluators_eq fun site _ old hold => run_watchEvaluate site.module old hold]
    rfl

/-- The alarm is never heard. -/
theorem Call.run_watch {base current : Module τ} (h : Consistent base current)
    (alarm : StateT (List (Import (Module τ))) (StateM σ) Unit) (convert : Converter (StateM σ) τ)
    (call : Call) (s : σ) :
    (call.watch alarm convert current).run s = (call.run convert current).run s := by
  refine call.run_induction (P := fun _ current place s left =>
    (Call.watch alarm convert { call with place } current).run s = left) convert ?_ ?_ ?_ ?_ h s
  · intro base current s h hname
    simp only [Call.watch, descend, hname]
    exact run_watchEvaluate current base h call.given s
  · intro base current name s h hname
    simp only [Call.watch, descend, hname]
    exact run_watchImport h call.given name s
  · exact fun base current index place s _ hnew => run_descend_absent current s hnew
  · intro base current index place old site s left _ hb hwatched
    rw [Call.watch, run_descend current s hb.new, ← hwatched]
    rfl

end

end ManifestModules.Module
