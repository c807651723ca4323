import ManifestModules.Proofs.Effect
import ManifestModules.Proofs.Module.CallByName
import Mathlib.Data.List.Basic

/-!
# Runs inside a module

What each step of an evaluation does to the imports of the module it works in. Only two things are
ever written: the state of an import and its module.
-/

namespace ManifestModules.Module

open Template

variable {σ τ : Type}

def mark (imports : List (Import (Module τ))) (index : Nat) (state : ImportState) :
    List (Import (Module τ)) :=
  imports.modify index fun site => { site with state }

def store (imports : List (Import (Module τ))) (index : Nat) (module : Module τ) :
    List (Import (Module τ)) :=
  imports.modify index fun site => { site with module }

theorem with_imports_eq (module : Module τ) {imports : List (Import (Module τ))}
    (h : imports = module.imports) : { module with imports } = module := by
  cases module
  subst h
  rfl

def bodyAt (imports : List (Import (Module τ))) (index : Nat) : Option Value :=
  imports[index]?.bind (·.module.resource.body?)

def demandBody (demand : Nat → Scoped (StateM σ) τ Unit) (index : Nat) :
    Scoped (StateM σ) τ (Option Value) := do
  demand index
  return bodyAt (← get) index

theorem exec_demandBody_ok {demand : Nat → Scoped (StateM σ) τ Unit} {index : Nat}
    {imports imports' : List (Import (Module τ))} {s s' : σ}
    (h : exec (demand index) imports s = ⟨.ok (), imports', s'⟩) :
    exec (demandBody demand index) imports s = ⟨.ok (bodyAt imports' index), imports', s'⟩ := by
  rw [demandBody, exec_bind_ok h]
  rfl

theorem exec_demandBody_error {demand : Nat → Scoped (StateM σ) τ Unit} {index : Nat}
    {imports imports' : List (Import (Module τ))} {s s' : σ} {e : Failure}
    (h : exec (demand index) imports s = ⟨.error e, imports', s'⟩) :
    exec (demandBody demand index) imports s = ⟨.error e, imports', s'⟩ := by
  rw [demandBody, exec_bind_error h]

theorem resolveIn_param {scope : Scope} {demand : Nat → Scoped (StateM σ) τ Unit} {ident : String}
    {value : Value} (h : scope.params.lookup (splitIdent ident).1 = some value) :
    resolveIn scope demand ident =
      (liftM (indexPath ident value (splitIdent ident).2) : Scoped (StateM σ) τ Value) := by
  simp only [resolveIn, h]

theorem exec_resolveIn_unknown {scope : Scope} {demand : Nat → Scoped (StateM σ) τ Unit}
    {ident : String} {imports : List (Import (Module τ))} (s : σ)
    (hp : scope.params.lookup (splitIdent ident).1 = none)
    (hi : imports.findIdx? (·.name = (splitIdent ident).1) = none) :
    exec (resolveIn scope demand ident) imports s = ⟨.error (.unknownIdentifier ident scope.path
      (similarNames (splitIdent ident).1 (Table.keys scope.params ++ imports.map (·.name)))),
      imports, s⟩ := by
  simp only [resolveIn, hp]
  rw [exec_bind_ok (exec_get imports s)]
  simp only [hi, exec_throw]

theorem exec_resolveIn_import {scope : Scope} {demand : Nat → Scoped (StateM σ) τ Unit}
    {ident : String} {imports : List (Import (Module τ))} (s : σ) {index : Nat}
    (hp : scope.params.lookup (splitIdent ident).1 = none)
    (hi : imports.findIdx? (·.name = (splitIdent ident).1) = some index) :
    exec (resolveIn scope demand ident) imports s = exec (demandBody demand index >>= fun body =>
      liftM (answerFrom scope ident (splitIdent ident).1 (splitIdent ident).2 body)) imports s := by
  simp only [resolveIn, hp]
  rw [exec_bind_ok (exec_get imports s)]
  rcases hrun : exec (demand index) imports s with ⟨r, imports', s'⟩
  cases r with
  | error e =>
    rw [exec_bind_error (exec_demandBody_error hrun)]
    simp only [hi]
    exact exec_bind_error hrun
  | ok a =>
    rw [exec_bind_ok (exec_demandBody_ok hrun)]
    simp only [hi]
    rw [exec_bind_ok hrun, exec_bind_ok (exec_get imports' s')]
    simp only [bodyAt]
    cases imports'[index]?.bind (·.module.resource.body?) <;> rfl

/-- How an identifier is answered: by a parameter, by nothing, or by an import that is demanded
first. -/
inductive Resolved (scope : Scope) (demand : Nat → Scoped (StateM σ) τ Unit) (ident : String)
    (imports : List (Import (Module τ))) (s : σ) :
    Trace (List (Import (Module τ))) σ Value → Prop
  | param {value : Value} (found : scope.params.lookup (splitIdent ident).1 = some value) :
    Resolved scope demand ident imports s ⟨indexPath ident value (splitIdent ident).2, imports, s⟩
  | unknown (noParam : scope.params.lookup (splitIdent ident).1 = none)
    (noImport : imports.findIdx? (·.name = (splitIdent ident).1) = none) :
    Resolved scope demand ident imports s ⟨.error (.unknownIdentifier ident scope.path
      (similarNames (splitIdent ident).1 (Table.keys scope.params ++ imports.map (·.name)))),
      imports, s⟩
  | refused (index : Nat) {imports' : List (Import (Module τ))} {s' : σ} {e : Failure}
    (noParam : scope.params.lookup (splitIdent ident).1 = none)
    (found : imports.findIdx? (·.name = (splitIdent ident).1) = some index)
    (demands : exec (demand index) imports s = ⟨.error e, imports', s'⟩) :
    Resolved scope demand ident imports s ⟨.error e, imports', s'⟩
  | answered (index : Nat) {imports' : List (Import (Module τ))} {s' : σ}
    (noParam : scope.params.lookup (splitIdent ident).1 = none)
    (found : imports.findIdx? (·.name = (splitIdent ident).1) = some index)
    (demands : exec (demand index) imports s = ⟨.ok (), imports', s'⟩) :
    Resolved scope demand ident imports s ⟨answerFrom scope ident (splitIdent ident).1
      (splitIdent ident).2 (bodyAt imports' index), imports', s'⟩

theorem resolved (scope : Scope) (demand : Nat → Scoped (StateM σ) τ Unit) (ident : String)
    (imports : List (Import (Module τ))) (s : σ) :
    Resolved scope demand ident imports s (exec (resolveIn scope demand ident) imports s) := by
  cases hparam : scope.params.lookup (splitIdent ident).1 with
  | some value =>
    rw [resolveIn_param hparam, exec_liftM]
    exact .param hparam
  | none =>
    cases himport : imports.findIdx? (·.name = (splitIdent ident).1) with
    | none =>
      rw [exec_resolveIn_unknown s hparam himport]
      exact .unknown hparam himport
    | some index =>
      rw [exec_resolveIn_import s hparam himport]
      rcases hrun : exec (demand index) imports s with ⟨r, imports', s'⟩
      cases r with
      | error e =>
        rw [exec_bind_error (exec_demandBody_error hrun)]
        exact .refused index hparam himport hrun
      | ok done =>
        rw [exec_bind_ok (exec_demandBody_ok hrun), exec_liftM]
        exact .answered index hparam himport hrun

/-- Marking an import as evaluating, as a run. -/
theorem run_setState (index : Nat) (state : ImportState) (imports : List (Import (Module τ)))
    (s : σ) : ((Scoped.setState (m := StateM σ) index state).run imports).run s =
      (((), mark imports index state), s) := rfl

def stateAfter : Except Failure Unit → ImportState
  | .ok () => .evaluated
  | .error _ => .unevaluated

/-- Work on an import leaves its own trace, and the mark is set by the result. -/
theorem exec_whileEvaluating (index : Nat) (work : Scoped (StateM σ) τ Unit)
    (imports : List (Import (Module τ))) (s : σ) :
    exec (Scoped.whileEvaluating index work) imports s =
      let left := exec work (mark imports index .evaluating) s
      ⟨left.result, mark left.state index (stateAfter left.result), left.world⟩ := by
  rcases hwork : exec work (mark imports index .evaluating) s with ⟨r, imports', s'⟩
  have hrun := run_of_exec hwork
  simp only [exec, Scoped.whileEvaluating, ExceptT.run_mk, StateT.run_bind, run_setState]
  simp only [bind, hrun]
  cases r <;> rfl

/-- What the work on an import leaves: its parameters cannot be filled, or its module is evaluated
with them. -/
inductive Worked (fill : Scoped (StateM σ) τ Entries) (evaluator : Evaluator (StateM σ) τ)
    (index : Nat) (imports : List (Import (Module τ))) (s : σ) :
    Trace (List (Import (Module τ))) σ Unit → Prop
  | refused {e : Failure} {imports' : List (Import (Module τ))} {s' : σ}
    (fills : exec fill imports s = ⟨.error e, imports', s'⟩) :
    Worked fill evaluator index imports s ⟨.error e, imports', s'⟩
  | ran {params : Entries} {imports' : List (Import (Module τ))} {s' s'' : σ}
    {result : Except Failure Unit} {module : Module τ}
    (fills : exec fill imports s = ⟨.ok params, imports', s'⟩)
    (evaluates : (evaluator params).run s' = ((result, module), s'')) :
    Worked fill evaluator index imports s ⟨result, store imports' index module, s''⟩

theorem worked (fill : Scoped (StateM σ) τ Entries) (evaluator : Evaluator (StateM σ) τ)
    (index : Nat) (imports : List (Import (Module τ))) (s : σ) :
    Worked fill evaluator index imports s
      (exec (fill >>= Scoped.runEvaluator index evaluator) imports s) := by
  rcases hfill : exec fill imports s with ⟨r, imports', s'⟩
  cases r with
  | error e =>
    rw [exec_bind_error hfill]
    exact .refused hfill
  | ok params =>
    rw [exec_bind_ok hfill]
    exact .ran hfill rfl

section

variable {scope : Scope} {evaluators : List (Evaluator (StateM σ) τ)} {room index : Nat}
  {chain : List Nat} {imports : List (Import (Module τ))} {site : Import (Module τ)}
  {evaluator : Evaluator (StateM σ) τ}
  {go : Import (Module τ) → Evaluator (StateM σ) τ → Scoped (StateM σ) τ Unit}

theorem exec_visitImport_absent (s : σ) (hi : imports[index]? = none) :
    exec (visitImport scope evaluators chain index go) imports s = ⟨.ok (), imports, s⟩ := by
  refine (exec_bind_ok (exec_get imports s)).trans ?_
  rw [hi]
  rfl

theorem exec_visitImport_evaluated (s : σ) (hi : imports[index]? = some site)
    (hs : site.state = .evaluated) :
    exec (visitImport scope evaluators chain index go) imports s = ⟨.ok (), imports, s⟩ := by
  refine (exec_bind_ok (exec_get imports s)).trans ?_
  rw [hi]
  cases evaluators[index]? with
  | none => rfl
  | some evaluator => simp only [hs, exec_pure]

theorem exec_visitImport_evaluating (s : σ) (hi : imports[index]? = some site)
    (he : evaluators[index]? = some evaluator) (hs : site.state = .evaluating) :
    exec (visitImport scope evaluators chain index go) imports s =
      ⟨.error (demandCycle scope imports chain index), imports, s⟩ := by
  refine (exec_bind_ok (exec_get imports s)).trans ?_
  simp only [hi, he, hs, exec_throw]

theorem exec_visitImport_unevaluated (s : σ) (hi : imports[index]? = some site)
    (he : evaluators[index]? = some evaluator) (hs : site.state = .unevaluated) :
    exec (visitImport scope evaluators chain index go) imports s =
      exec (go site evaluator) imports s := by
  refine (exec_bind_ok (exec_get imports s)).trans ?_
  simp only [hi, he, hs]

theorem exec_demandImport_absent (s : σ) (hi : imports[index]? = none) :
    exec (demandImport scope evaluators room chain index) imports s = ⟨.ok (), imports, s⟩ := by
  cases room <;> exact exec_visitImport_absent s hi

theorem exec_demandImport_evaluated (s : σ) (hi : imports[index]? = some site)
    (hs : site.state = .evaluated) :
    exec (demandImport scope evaluators room chain index) imports s = ⟨.ok (), imports, s⟩ := by
  cases room <;> exact exec_visitImport_evaluated s hi hs

theorem exec_demandImport_evaluating (s : σ) (hi : imports[index]? = some site)
    (he : evaluators[index]? = some evaluator) (hs : site.state = .evaluating) :
    exec (demandImport scope evaluators room chain index) imports s =
      ⟨.error (demandCycle scope imports chain index), imports, s⟩ := by
  cases room <;> exact exec_visitImport_evaluating s hi he hs

theorem exec_demandImport_unevaluated (s : σ) (hi : imports[index]? = some site)
    (he : evaluators[index]? = some evaluator) (hs : site.state = .unevaluated) :
    exec (demandImport scope evaluators (room + 1) chain index) imports s =
      exec (Scoped.whileEvaluating index (
        substituteEntries (resolveIn scope (demandImport scope evaluators room (chain ++ [index])))
          site.params >>= Scoped.runEvaluator index evaluator)) imports s :=
  exec_visitImport_unevaluated s hi he hs

end

section

variable {convert : Converter (StateM σ) τ} {module : Module τ} {given : Entries}
  {imports' : List (Import (Module τ))} {s s' : σ}

abbrev fillOf (convert : Converter (StateM σ) τ) (module : Module τ) (given : Entries) :
    Scoped (StateM σ) τ Entries :=
  fillResource (module.scopeWith given) (importEvaluators convert module.imports)
    module.resource.raw

theorem evaluate_evaluated (h : module.evaluated = true) :
    (evaluate convert module given).run s = ((.ok (), module), s) := by
  rcases module with ⟨path, imports, params, evaluated, resource, diagnostics⟩
  simp only at h
  subst h
  rfl

theorem evaluate_error {e : Failure} (h : module.evaluated = false)
    (hfill : exec (fillOf convert module given) module.imports s = ⟨.error e, imports', s'⟩) :
    (evaluate convert module given).run s =
      ((.error e, { module with imports := imports' }), s') := by
  rcases module with ⟨path, imports, params, evaluated, resource, diagnostics⟩
  simp only at h
  subst h
  have hrun := run_of_exec hfill
  simp only [evaluate, Bool.false_eq_true, if_false, StateT.run_bind]
  simp only [fillOf, scopeWith] at hrun
  simp only [bind, hrun]
  rfl

theorem evaluate_ok {raw : Entries} (h : module.evaluated = false)
    (hfill : exec (fillOf convert module given) module.imports s = ⟨.ok raw, imports', s'⟩) :
    (evaluate convert module given).run s =
      let converted := (convertResource convert module.path raw).run s'
      ((.ok (), { module with
        imports := imports', resource := ⟨raw, some converted.1⟩, evaluated := true }),
        converted.2) := by
  rcases module with ⟨path, imports, params, evaluated, resource, diagnostics⟩
  simp only at h
  subst h
  have hrun := run_of_exec hfill
  simp only [evaluate, Bool.false_eq_true, if_false, StateT.run_bind]
  simp only [fillOf, scopeWith] at hrun
  simp only [bind, hrun]
  rfl

theorem run_evaluateImport_unknown {name : String}
    (h : module.imports.findIdx? (·.name = name) = none) :
    (evaluateImport convert module given name).run s =
      ((.error (.unknownIdentifier name module.path
        (similarNames name (module.imports.map (·.name)))), module), s) := by
  simp only [evaluateImport, h]
  rfl

theorem run_evaluateImport {name : String} {index : Nat}
    (h : module.imports.findIdx? (·.name = name) = some index) :
    (evaluateImport convert module given name).run s =
      let trace := exec (demandFirst (module.scopeWith given)
        (importEvaluators convert module.imports) index) module.imports s
      ((trace.result, { module with imports := trace.state }), trace.world) := by
  simp only [evaluateImport, h]
  rfl

end

end ManifestModules.Module
