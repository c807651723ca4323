import ManifestModules.Proofs.Module.Agreement
import ManifestModules.Proofs.Module.Calls
import ManifestModules.Proofs.Module.Loaded
import ManifestModules.Proofs.Table

/-!
# Scopes of parameters

Where imports do not come in, the scope of a module is one of parameters only. A module without
imports is filled as its template is filled with its parameters, up to the failure that is reported;
and in any module an identifier whose head is a parameter means this parameter, also if an import
has the same name, which is then left alone.
-/

namespace ManifestModules.Module

open Template

variable {σ τ α : Type}

/-- Answers from parameters only; the path is named in failures. -/
def answerParam (path : String) (params : Entries) : Resolver Id :=
  fun ident => ExceptT.mk (resolveParam path params ident)

/-- A computation that finds no imports and leaves none, with the result of another one. -/
def Importless (x : Scoped (StateM σ) τ α) (y : ExceptT Failure Id α) : Prop :=
  ∀ s, exec x [] s = ⟨value y, [], s⟩

def importless (σ τ : Type) :
    Correspondence (StateT (List (Import (Module τ))) (StateM σ)) Id Unit where
  Rel _ x y := Importless x (y ())
  pure a := fun _ => rfl
  bind {α β asked later x y f g} hx hf := by
    intro s
    cases hy : value (y ()) with
    | error e =>
      rw [exec_bind_error ((hx s).trans (by rw [hy])), value_bind_error hy]
    | ok a =>
      rw [exec_bind_ok ((hx s).trans (by rw [hy])), value_bind_ok hy]
      exact hf a s
  fillMismatch _ _ _ _ := fun _ => rfl
  spreadMismatch _ _ _ := fun _ => rfl

variable {scope : Scope} {demand : Nat → Scoped (StateM σ) τ Unit} {ident : String}

/-- A parameter is answered in every scope alike, and nothing is demanded for it. -/
theorem exec_resolveIn_param {value : Value}
    (h : scope.params.lookup (splitIdent ident).1 = some value)
    (imports : List (Import (Module τ))) (s : σ) :
    exec (resolveIn scope demand ident) imports s =
      ⟨resolveParam scope.path scope.params ident, imports, s⟩ := by
  rw [resolveIn_param h, exec_liftM]
  simp only [resolveParam, h]

theorem importless_resolveIn (scope : Scope) (demand : Nat → Scoped (StateM σ) τ Unit)
    (ident : String) :
    Importless (resolveIn scope demand ident) (answerParam scope.path scope.params ident) := by
  intro s
  change _ = Trace.mk (resolveParam scope.path scope.params ident) [] s
  cases hp : scope.params.lookup (splitIdent ident).1 with
  | some value => exact exec_resolveIn_param hp [] s
  | none =>
    rw [exec_resolveIn_unknown s hp rfl, List.map_nil, List.append_nil]
    simp only [resolveParam, hp]

variable {convert : Converter (StateM σ) τ} {module : Module τ} {given : Entries}

theorem exec_fillOf_importless (h : module.imports = []) (s : σ) :
    exec (fillOf convert module given) module.imports s =
      ⟨filled (answerParam module.path (module.effectiveParams given)) module.resource.raw,
        [], s⟩ := by
  have hresolve (ident : String) : (importless σ τ).Rel [ident]
      (resolveIn (module.scopeWith given) (demandFirst (module.scopeWith given)
        (importEvaluators convert module.imports)) ident)
      fun _ => answerParam module.path (module.effectiveParams given) ident :=
    importless_resolveIn _ _ ident
  rw [h]
  exact (importless σ τ).substituteEntries module.resource.raw (fun ident _ => hresolve ident) s

theorem outcome_evaluate_importless (hpending : module.evaluated = false)
    (himports : module.imports = []) (s : σ) :
    outcome ((evaluate convert module given).run s).1 =
      filled (answerParam module.path (module.effectiveParams given)) module.resource.raw := by
  rcases hfill : exec (fillOf convert module given) module.imports s with ⟨r, imports', s'⟩
  have hfilled : r = filled _ module.resource.raw :=
    congrArg Trace.result (hfill.symm.trans (exec_fillOf_importless himports s))
  rw [← hfilled]
  cases r with
  | error e =>
    rw [evaluate_error hpending hfill]
    rfl
  | ok raw =>
    rw [evaluate_ok hpending hfill]
    rfl

/-- An identifier that is answered without any demand leaves the module as it is. -/
theorem run_resolveIdent {params : Entries} {result : Except Failure Value} {s : σ}
    (h : exec (resolveIn ⟨module.path, params⟩
      (demandFirst ⟨module.path, params⟩ (importEvaluators convert module.imports)) ident)
      module.imports s = ⟨result, module.imports, s⟩) :
    (resolveIdent convert module params ident).run s = ((result, module), s) := by
  have hrun := run_of_exec h
  simp only [resolveIdent, inScope, StateT.run_bind]
  simp only [bind, hrun, with_imports_eq module rfl]
  rfl

/-- The scope of a module agrees with its parameters. Without imports, an evaluation fills the
resource as the parameters alone would, or fails as they do. With imports, every identifier whose
head is a parameter has the meaning that it has for the parameters alone, wherever it is resolved,
and no import is touched. -/
theorem scope_agrees_with_params (convert : Converter (StateM σ) τ) (module : Module τ)
    (given : Entries) (s : σ) :
    let params := Table.override module.defaults given
    (module.evaluated = false → module.imports = [] →
      outcome ((evaluate convert module given).run s).1 =
        filled (answerParam module.path params) module.resource.raw) ∧
    ∀ ident, (splitIdent ident).1 ∈ Table.keys params →
      (resolveIdent convert module params ident).run s =
        ((resolveParam module.path params ident, module), s) ∧
      ∀ (demand : Nat → Scoped (StateM σ) τ Unit) (imports : List (Import (Module τ))),
        exec (resolveIn ⟨module.path, params⟩ demand ident) imports s =
          ⟨resolveParam module.path params ident, imports, s⟩ := by
  refine ⟨fun hpending himports => outcome_evaluate_importless hpending himports s,
    fun ident hident => ?_⟩
  have hbound : List.lookup (splitIdent ident).1 (Table.override module.defaults given) ≠ none :=
    fun hnone => Table.lookup_eq_none_iff.1 hnone hident
  obtain ⟨value, hvalue⟩ := Option.ne_none_iff_exists'.1 hbound
  have hresolve (demand : Nat → Scoped (StateM σ) τ Unit) (imports : List (Import (Module τ))) :
      exec (resolveIn (module.scopeWith given) demand ident) imports s = _ :=
    exec_resolveIn_param hvalue imports s
  exact ⟨run_resolveIdent (hresolve _ module.imports), hresolve⟩

def sidecarModule : Module Unit where
  path := "sidecar.yaml"
  imports := []
  params := [("port", ⟨none, some (.number (.integer 80))⟩)]
  evaluated := false
  resource := ⟨[("svc", .list [.string "${port}", .string "${prot}"])], none⟩
  diagnostics := []

theorem scope_agrees_with_params_pod :
    (outcome ((evaluate asUnit sidecarModule []).run ()).1 =
        filled (answerParam "sidecar.yaml" [("port", .number (.integer 80))])
          [("svc", .list [.string "${port}", .string "${prot}"])] ∧
      filled (answerParam "sidecar.yaml" [("port", .number (.integer 80))])
          [("svc", .list [.string "${port}", .string "${prot}"])] =
        .error (.unknownIdentifier "prot" "sidecar.yaml" ["port"])) ∧
    (resolveIdent asUnit podModule [("a", .string "given")] "a").run () =
      ((.ok (.string "given"), podModule), ()) := by
  have hpod : resolveParam "pod.yaml" [("a", .string "given")] "a" = .ok (.string "given") := rfl
  have ha : (splitIdent "a").1 ∈ Table.keys [("a", Value.string "given")] :=
    List.mem_singleton_self "a"
  refine ⟨⟨(scope_agrees_with_params asUnit sidecarModule [] ()).1 rfl rfl, rfl⟩, ?_⟩
  rw [← hpod]
  exact ((scope_agrees_with_params asUnit podModule [("a", .string "given")] ()).2 "a" ha).1

end ManifestModules.Module
