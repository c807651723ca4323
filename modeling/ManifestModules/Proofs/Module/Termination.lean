import ManifestModules.Proofs.Module.Marks
import ManifestModules.Proofs.Module.Tree
import ManifestModules.Proofs.Template.Dialogue
import Mathlib.Data.List.Perm.Subperm

/-!
# Evaluation ends

The rules of an evaluation bound nothing: resolving an identifier may evaluate an import, the
parameters of the import are templates of the same scope, and its module is evaluated like any
other. Yet every call has a finite run. In one scope, imports that are evaluated inside one another
are different ones, and besides that a run only goes down into the modules that imports own.
-/

namespace ManifestModules.Module

open Template

variable {σ τ : Type}

/-- A step of an evaluation that may not repeat forever. -/
inductive Descent (τ : Type) where
  /-- The imports of a module that are now evaluated inside one another, outermost first. -/
  | demand (module : Module τ) (chain : List Nat)
  /-- From a module to one that is evaluated for an import. -/
  | entry (module inner : Module τ)

/-- The imports are different ones of the module; the module that is entered is the one an import
had when the evaluation of the importing module began. -/
def Descent.Sound : Descent τ → Prop
  | .demand module chain => chain.Nodup ∧ (∀ i ∈ chain, i < module.imports.length) ∧
    chain.length ≤ module.imports.length
  | .entry module inner => ∃ site ∈ module.imports, site.module = inner

section

variable (convert : Converter (StateM σ) τ)

mutual

/-- A run of evaluating a module with parameters, with what it leaves and the descents on the
way. -/
inductive Evaluates : Module τ → Entries → σ → (Except Failure Unit × Module τ) × σ →
    List (Descent τ) → Prop
  | evaluated {module : Module τ} {given : Entries} {s : σ} (done : module.evaluated = true) :
    Evaluates module given s ((.ok (), module), s) []
  | failed {module : Module τ} {given : Entries} {s s' : σ} {e : Failure}
    {imports : List (Import (Module τ))} {descents : List (Descent τ)}
    (pending : module.evaluated = false)
    (fills : Fills module given [] (dialogue module.resource.raw) module.imports s
      ⟨.error e, imports, s'⟩ descents) :
    Evaluates module given s ((.error e, { module with imports }), s') descents
  | filled {module : Module τ} {given raw : Entries} {s s' : σ}
    {imports : List (Import (Module τ))} {descents : List (Descent τ)}
    (pending : module.evaluated = false)
    (fills : Fills module given [] (dialogue module.resource.raw) module.imports s
      ⟨.ok raw, imports, s'⟩ descents) :
    Evaluates module given s
      ((.ok (), { module with
        imports,
        resource := ⟨raw, some ((convertResource convert module.path raw).run s').1⟩,
        evaluated := true }), ((convertResource convert module.path raw).run s').2) descents

/-- A run of evaluating an import unless that has been done. The module whose imports they are, and
the parameters given to it, are the scope; the chain holds the imports being evaluated in it. -/
inductive Demands : Module τ → Entries → List Nat → Nat → List (Import (Module τ)) → σ →
    Trace (List (Import (Module τ))) σ Unit → List (Descent τ) → Prop
  | evaluated {base : Module τ} {given : Entries} {chain : List Nat} {index : Nat}
    {imports : List (Import (Module τ))} {s : σ} {site : Import (Module τ)}
    (found : imports[index]? = some site) (done : site.state = .evaluated) :
    Demands base given chain index imports s ⟨.ok (), imports, s⟩ []
  | evaluating {base : Module τ} {given : Entries} {chain : List Nat} {index : Nat}
    {imports : List (Import (Module τ))} {s : σ} {site : Import (Module τ)}
    (found : imports[index]? = some site) (active : site.state = .evaluating) :
    Demands base given chain index imports s
      ⟨.error (demandCycle (base.scopeWith given) imports chain index), imports, s⟩ []
  | refused {base : Module τ} {given : Entries} {chain : List Nat} {index : Nat}
    {imports imports' : List (Import (Module τ))} {s s' : σ} {site : Import (Module τ)}
    {e : Failure} {descents : List (Descent τ)}
    (found : imports[index]? = some site) (pending : site.state = .unevaluated)
    (fills : Fills base given (chain ++ [index]) (dialogue site.params)
      (mark imports index .evaluating) s ⟨.error e, imports', s'⟩ descents) :
    Demands base given chain index imports s ⟨.error e, mark imports' index .unevaluated, s'⟩
      (.demand base (chain ++ [index]) :: descents)
  | entered {base : Module τ} {given params : Entries} {chain : List Nat} {index : Nat}
    {imports imports' : List (Import (Module τ))} {s s' s'' : σ} {site site' : Import (Module τ)}
    {module : Module τ} {r : Except Failure Unit} {descents more : List (Descent τ)}
    (found : imports[index]? = some site) (pending : site.state = .unevaluated)
    (fills : Fills base given (chain ++ [index]) (dialogue site.params)
      (mark imports index .evaluating) s ⟨.ok params, imports', s'⟩ descents)
    (owner : imports'[index]? = some site')
    (evaluates : Evaluates site'.module params s' ((r, module), s'') more) :
    Demands base given chain index imports s
      ⟨r, mark (store imports' index module) index (stateAfter r), s''⟩
      (.demand base (chain ++ [index]) :: descents ++ .entry base site'.module :: more)

inductive Resolves : Module τ → Entries → List Nat → String → List (Import (Module τ)) → σ →
    Trace (List (Import (Module τ))) σ Value → List (Descent τ) → Prop
  | param {base : Module τ} {given : Entries} {chain : List Nat} {ident : String}
    {imports : List (Import (Module τ))} {s : σ} {value : Value}
    (found : (base.effectiveParams given).lookup (splitIdent ident).1 = some value) :
    Resolves base given chain ident imports s
      ⟨indexPath ident value (splitIdent ident).2, imports, s⟩ []
  | unknown {base : Module τ} {given : Entries} {chain : List Nat} {ident : String}
    {imports : List (Import (Module τ))} {s : σ}
    (noParam : (base.effectiveParams given).lookup (splitIdent ident).1 = none)
    (noImport : imports.findIdx? (·.name = (splitIdent ident).1) = none) :
    Resolves base given chain ident imports s
      ⟨.error (.unknownIdentifier ident base.path (similarNames (splitIdent ident).1
        (Table.keys (base.effectiveParams given) ++ imports.map (·.name)))), imports, s⟩ []
  | refused {base : Module τ} {given : Entries} {chain : List Nat} {ident : String} {index : Nat}
    {imports imports' : List (Import (Module τ))} {s s' : σ} {e : Failure}
    {descents : List (Descent τ)}
    (noParam : (base.effectiveParams given).lookup (splitIdent ident).1 = none)
    (found : imports.findIdx? (·.name = (splitIdent ident).1) = some index)
    (demands : Demands base given chain index imports s ⟨.error e, imports', s'⟩ descents) :
    Resolves base given chain ident imports s ⟨.error e, imports', s'⟩ descents
  | answered {base : Module τ} {given : Entries} {chain : List Nat} {ident : String} {index : Nat}
    {imports imports' : List (Import (Module τ))} {s s' : σ} {descents : List (Descent τ)}
    (noParam : (base.effectiveParams given).lookup (splitIdent ident).1 = none)
    (found : imports.findIdx? (·.name = (splitIdent ident).1) = some index)
    (demands : Demands base given chain index imports s ⟨.ok (), imports', s'⟩ descents) :
    Resolves base given chain ident imports s
      ⟨answerFrom (base.scopeWith given) ident (splitIdent ident).1 (splitIdent ident).2
        (bodyAt imports' index), imports', s'⟩ descents

inductive Fills : Module τ → Entries → List Nat → Dialogue (Except Failure Entries) →
    List (Import (Module τ)) → σ → Trace (List (Import (Module τ))) σ Entries →
    List (Descent τ) → Prop
  | done {base : Module τ} {given : Entries} {chain : List Nat}
    {result : Except Failure Entries} {imports : List (Import (Module τ))} {s : σ} :
    Fills base given chain (.done result) imports s ⟨result, imports, s⟩ []
  | refused {base : Module τ} {given : Entries} {chain : List Nat} {ident : String}
    {next : Value → Dialogue (Except Failure Entries)} {imports imports' : List (Import (Module τ))}
    {s s' : σ} {e : Failure} {descents : List (Descent τ)}
    (resolves : Resolves base given chain ident imports s ⟨.error e, imports', s'⟩ descents) :
    Fills base given chain (.ask ident next) imports s ⟨.error e, imports', s'⟩ descents
  | answered {base : Module τ} {given : Entries} {chain : List Nat} {ident : String}
    {next : Value → Dialogue (Except Failure Entries)} {imports imports' : List (Import (Module τ))}
    {s s' : σ} {value : Value} {trace : Trace (List (Import (Module τ))) σ Entries}
    {descents more : List (Descent τ)}
    (resolves : Resolves base given chain ident imports s ⟨.ok value, imports', s'⟩ descents)
    (fills : Fills base given chain (next value) imports' s' trace more) :
    Fills base given chain (.ask ident next) imports s trace (descents ++ more)

end

inductive EvaluatesImport : Module τ → Entries → String → σ →
    (Except Failure Unit × Module τ) × σ → List (Descent τ) → Prop
  | unknown {module : Module τ} {given : Entries} {name : String} {s : σ}
    (absent : module.imports.findIdx? (·.name = name) = none) :
    EvaluatesImport module given name s
      ((.error (.unknownIdentifier name module.path
        (similarNames name (module.imports.map (·.name)))), module), s) []
  | demanded {module : Module τ} {given : Entries} {name : String} {s s' : σ} {index : Nat}
    {imports : List (Import (Module τ))} {r : Except Failure Unit} {descents : List (Descent τ)}
    (found : module.imports.findIdx? (·.name = name) = some index)
    (demands : Demands convert module given [] index module.imports s ⟨r, imports, s'⟩ descents) :
    EvaluatesImport module given name s ((r, { module with imports }), s') descents

end

section

variable {convert : Converter (StateM σ) τ}

section

variable {base : Module τ} {given : Entries} {chain : List Nat} {index : Nat}
  {imports : List (Import (Module τ))} {s : σ} {site : Import (Module τ)}
  {trace : Trace (List (Import (Module τ))) σ Unit} {descents : List (Descent τ)}
  (h : Demands convert base given chain index imports s trace descents)
  (found : imports[index]? = some site)
include h found

theorem Demands.of_evaluated (done : site.state = .evaluated) :
    trace = ⟨.ok (), imports, s⟩ ∧ descents = [] := by
  cases h with
  | evaluated => exact ⟨rfl, rfl⟩
  | evaluating found' active =>
    cases found.symm.trans found'
    cases done.symm.trans active
  | refused found' pending | entered found' pending =>
    cases found.symm.trans found'
    cases done.symm.trans pending

theorem Demands.of_evaluating (active : site.state = .evaluating) :
    trace = ⟨.error (demandCycle (base.scopeWith given) imports chain index), imports, s⟩ ∧
      descents = [] := by
  cases h with
  | evaluated found' done =>
    cases found.symm.trans found'
    cases active.symm.trans done
  | evaluating => exact ⟨rfl, rfl⟩
  | refused found' pending | entered found' pending =>
    cases found.symm.trans found'
    cases active.symm.trans pending

/-- The parameters of an import are filled first, whatever becomes of them. -/
theorem Demands.of_unevaluated (pending : site.state = .unevaluated) :
    ∃ result imports' s' filling, Fills convert base given (chain ++ [index])
      (dialogue site.params) (mark imports index .evaluating) s ⟨result, imports', s'⟩ filling ∧
      match result with
      | .error e => trace = ⟨.error e, mark imports' index .unevaluated, s'⟩ ∧
        descents = .demand base (chain ++ [index]) :: filling
      | .ok params => ∃ site' r module s'' more, imports'[index]? = some site' ∧
        Evaluates convert site'.module params s' ((r, module), s'') more ∧
        trace = ⟨r, mark (store imports' index module) index (stateAfter r), s''⟩ ∧
        descents =
          .demand base (chain ++ [index]) :: filling ++ .entry base site'.module :: more := by
  cases h with
  | evaluated found' done =>
    cases found.symm.trans found'
    cases pending.symm.trans done
  | evaluating found' active =>
    cases found.symm.trans found'
    cases pending.symm.trans active
  | refused found' _ fills =>
    cases found.symm.trans found'
    exact ⟨_, _, _, _, fills, rfl, rfl⟩
  | entered found' _ fills owner evaluates =>
    cases found.symm.trans found'
    exact ⟨_, _, _, _, fills, _, _, _, _, _, owner, evaluates, rfl, rfl⟩

end

mutual

theorem Evaluates.unique {module : Module τ} {given : Entries} {s : σ}
    {left left' : (Except Failure Unit × Module τ) × σ} {descents descents' : List (Descent τ)} :
    Evaluates convert module given s left descents →
    Evaluates convert module given s left' descents' → left = left' ∧ descents = descents'
  | .evaluated done, h => by
    cases h with
    | evaluated => exact ⟨rfl, rfl⟩
    | failed pending | filled pending => cases done.symm.trans pending
  | .failed pending fills, h => by
    cases h with
    | evaluated done => cases done.symm.trans pending
    | failed _ fills' =>
      obtain ⟨htrace, hdescents⟩ := fills.unique fills'
      cases htrace
      exact ⟨rfl, hdescents⟩
    | filled _ fills' => cases (fills.unique fills').1
  | .filled pending fills, h => by
    cases h with
    | evaluated done => cases done.symm.trans pending
    | failed _ fills' => cases (fills.unique fills').1
    | filled _ fills' =>
      obtain ⟨htrace, hdescents⟩ := fills.unique fills'
      cases htrace
      exact ⟨rfl, hdescents⟩
termination_by structural h => h

theorem Demands.unique {base : Module τ} {given : Entries} {chain : List Nat} {index : Nat}
    {imports : List (Import (Module τ))} {s : σ}
    {trace trace' : Trace (List (Import (Module τ))) σ Unit}
    {descents descents' : List (Descent τ)} :
    Demands convert base given chain index imports s trace descents →
    Demands convert base given chain index imports s trace' descents' →
    trace = trace' ∧ descents = descents'
  | .evaluated found done, h => by
    obtain ⟨rfl, rfl⟩ := h.of_evaluated found done
    exact ⟨rfl, rfl⟩
  | .evaluating found active, h => by
    obtain ⟨rfl, rfl⟩ := h.of_evaluating found active
    exact ⟨rfl, rfl⟩
  | .refused found pending fills, h => by
    obtain ⟨_, _, _, _, fills', hworks⟩ := h.of_unevaluated found pending
    obtain ⟨htrace, rfl⟩ := fills.unique fills'
    cases htrace
    obtain ⟨rfl, rfl⟩ := hworks
    exact ⟨rfl, rfl⟩
  | .entered found pending fills owner evaluates, h => by
    obtain ⟨_, _, _, _, fills', hworks⟩ := h.of_unevaluated found pending
    obtain ⟨htrace, rfl⟩ := fills.unique fills'
    cases htrace
    obtain ⟨_, _, _, _, _, owner', evaluates', rfl, rfl⟩ := hworks
    cases owner.symm.trans owner'
    obtain ⟨hleft, rfl⟩ := evaluates.unique evaluates'
    cases hleft
    exact ⟨rfl, rfl⟩
termination_by structural h => h

theorem Resolves.unique {base : Module τ} {given : Entries} {chain : List Nat} {ident : String}
    {imports : List (Import (Module τ))} {s : σ}
    {trace trace' : Trace (List (Import (Module τ))) σ Value}
    {descents descents' : List (Descent τ)} :
    Resolves convert base given chain ident imports s trace descents →
    Resolves convert base given chain ident imports s trace' descents' →
    trace = trace' ∧ descents = descents'
  | .param found, h => by
    cases h with
    | param found' =>
      cases found.symm.trans found'
      exact ⟨rfl, rfl⟩
    | unknown noParam | refused noParam | answered noParam => cases found.symm.trans noParam
  | .unknown noParam noImport, h => by
    cases h with
    | param found => cases noParam.symm.trans found
    | unknown => exact ⟨rfl, rfl⟩
    | refused _ found | answered _ found => cases noImport.symm.trans found
  | .refused noParam found demands, h => by
    cases h with
    | param found' => cases noParam.symm.trans found'
    | unknown _ noImport => cases found.symm.trans noImport
    | refused _ found' demands' =>
      cases found.symm.trans found'
      obtain ⟨htrace, rfl⟩ := demands.unique demands'
      cases htrace
      exact ⟨rfl, rfl⟩
    | answered _ found' demands' =>
      cases found.symm.trans found'
      cases (demands.unique demands').1
  | .answered noParam found demands, h => by
    cases h with
    | param found' => cases noParam.symm.trans found'
    | unknown _ noImport => cases found.symm.trans noImport
    | refused _ found' demands' =>
      cases found.symm.trans found'
      cases (demands.unique demands').1
    | answered _ found' demands' =>
      cases found.symm.trans found'
      obtain ⟨htrace, rfl⟩ := demands.unique demands'
      cases htrace
      exact ⟨rfl, rfl⟩
termination_by structural h => h

theorem Fills.unique {base : Module τ} {given : Entries} {chain : List Nat}
    {d : Dialogue (Except Failure Entries)} {imports : List (Import (Module τ))} {s : σ}
    {trace trace' : Trace (List (Import (Module τ))) σ Entries}
    {descents descents' : List (Descent τ)} :
    Fills convert base given chain d imports s trace descents →
    Fills convert base given chain d imports s trace' descents' →
    trace = trace' ∧ descents = descents'
  | .done, h => by
    cases h
    exact ⟨rfl, rfl⟩
  | .refused resolves, h => by
    cases h with
    | refused resolves' =>
      obtain ⟨htrace, rfl⟩ := resolves.unique resolves'
      cases htrace
      exact ⟨rfl, rfl⟩
    | answered resolves' => cases (resolves.unique resolves').1
  | .answered resolves fills, h => by
    cases h with
    | refused resolves' => cases (resolves.unique resolves').1
    | answered resolves' fills' =>
      obtain ⟨htrace, rfl⟩ := resolves.unique resolves'
      cases htrace
      obtain ⟨rfl, rfl⟩ := fills.unique fills'
      exact ⟨rfl, rfl⟩
termination_by structural h => h

end

end

/-- The evaluation of a module goes on: the imports on the chain are marked, and those that are not
evaluated own the module they had when it began. -/
structure Ongoing (base : Module τ) (chain : List Nat) (imports : List (Import (Module τ))) :
    Prop where
  same : imports.map declared = base.imports.map declared
  active : ∀ i ∈ chain, ∀ site, imports[i]? = some site → site.state = .evaluating
  owned : ∀ i old site, Became base.imports imports i old site → site.state ≠ .evaluated →
    site.module = old.module

section

variable {base : Module τ} {chain : List Nat} {index room : Nat}
  {imports : List (Import (Module τ))} {site old : Import (Module τ)}

namespace Ongoing

theorem start (base : Module τ) : Ongoing base [] base.imports := by
  refine ⟨rfl, by simp, fun i old site hbecame _ => ?_⟩
  cases hbecame.old.symm.trans hbecame.new
  rfl

theorem length_eq (h : Ongoing base chain imports) : imports.length = base.imports.length := by
  simpa using congrArg List.length h.same

theorem changed {imports' : List (Import (Module τ))} {chain' : List Nat}
    {site' : Import (Module τ)} (h : Ongoing base chain imports)
    (hchanged : Changed imports imports' index site')
    (hchain : ∀ i ∈ chain', i ≠ index → i ∈ chain)
    (hactive : index ∈ chain' → site'.state = .evaluating)
    (howned : ∀ old, base.imports[index]? = some old → site'.state ≠ .evaluated →
      site'.module = old.module) : Ongoing base chain' imports' := by
  refine ⟨hchanged.same.trans h.same, fun i hi now hnow => ?_, fun i old now hbecame hstate => ?_⟩
  · obtain ⟨rfl, rfl⟩ | ⟨hindex, hbefore⟩ := hchanged.getElem?_cases hnow
    · exact hactive hi
    · exact h.active i (hchain i hi hindex) now hbefore
  · obtain ⟨rfl, rfl⟩ | ⟨hindex, hbefore⟩ := hchanged.getElem?_cases hbecame.new
    · exact howned old hbecame.old hstate
    · exact h.owned i old now ⟨hbecame.old, hbefore⟩ hstate

theorem enter (h : Ongoing base chain imports) (hi : imports[index]? = some site)
    (hs : site.state = .unevaluated) :
    Ongoing base (chain ++ [index]) (mark imports index .evaluating) := by
  apply h.changed (.mark .evaluating hi)
  · intro i hmem hne
    simpa [hne] using hmem
  · intro _
    rfl
  · intro old hold _
    exact h.owned index old site ⟨hold, hi⟩ (by simp [hs])

theorem leave {module : Module τ} (h : Ongoing base (chain ++ [index]) imports)
    (hi : imports[index]? = some site) (hc : index ∉ chain) :
    Ongoing base chain (mark (store imports index module) index .evaluated) := by
  have hstored := Changed.store module hi
  apply h.changed (hstored.trans (.mark .evaluated hstored.new))
  · intro i hmem _
    exact List.mem_append_left _ hmem
  · intro hmem
    exact absurd hmem hc
  · intro old _ hstate
    exact absurd rfl hstate

end Ongoing

theorem Proper.length_le (h : Proper base chain) : chain.length ≤ base.imports.length := by
  have hsubset : chain ⊆ List.range base.imports.length := fun i hi =>
    List.mem_range.2 (h.bounded i hi)
  simpa using (List.subperm_of_subset h.nodup hsubset).length_le

/-- A chain that is as long as there are imports has all of them. -/
theorem Proper.mem_of_full (h : Proper base chain) (hfull : chain.length = base.imports.length)
    (hindex : index < base.imports.length) : index ∈ chain := by
  by_contra hc
  have hlength := (h.append hindex hc).length_le
  rw [List.length_append, List.length_singleton] at hlength
  omega

theorem Proper.sound (h : Proper base chain) : (Descent.demand base chain).Sound :=
  ⟨h.nodup, h.bounded, h.length_le⟩

/-- The rules give a run with a trace, in which all descents are sound. If it succeeds, the
evaluation of the module can go on. -/
def Ends {α : Type} (base : Module τ) (chain : List Nat)
    (runs : Trace (List (Import (Module τ))) σ α → List (Descent τ) → Prop)
    (trace : Trace (List (Import (Module τ))) σ α) : Prop :=
  ∃ descents, runs trace descents ∧ (∀ descent ∈ descents, descent.Sound) ∧
    ∀ a, trace.result = .ok a → Ongoing base chain trace.state

def DemandsEnd (convert : Converter (StateM σ) τ) (base : Module τ) (given : Entries)
    (chain : List Nat) (demand : Nat → Scoped (StateM σ) τ Unit) : Prop :=
  ∀ index imports s, index < base.imports.length → Ongoing base chain imports →
    Ends base chain (Demands convert base given chain index imports s)
      (exec (demand index) imports s)

def EvaluationEnds (convert : Converter (StateM σ) τ) (module : Module τ) : Prop :=
  ∀ given s, ∃ descents, Evaluates convert module given s ((evaluate convert module given).run s)
    descents ∧ ∀ descent ∈ descents, descent.Sound

variable {convert : Converter (StateM σ) τ} {given : Entries}
  {demand : Nat → Scoped (StateM σ) τ Unit}

theorem resolves_ends (hdemand : DemandsEnd convert base given chain demand)
    (ident : String) (h : Ongoing base chain imports) (s : σ) :
    Ends base chain (Resolves convert base given chain ident imports s)
      (exec (resolveIn (base.scopeWith given) demand ident) imports s) := by
  have hdemands (index : Nat) (hfound : imports.findIdx? (·.name = (splitIdent ident).1) =
      some index) : Ends base chain (Demands convert base given chain index imports s)
        (exec (demand index) imports s) := by
    obtain ⟨hlt, -⟩ := List.findIdx?_eq_some_iff_getElem.1 hfound
    exact hdemand index imports s (h.length_eq ▸ hlt) h
  have hresolved := resolved (base.scopeWith given) demand ident imports s
  generalize exec (resolveIn _ demand ident) imports s = left at hresolved ⊢
  cases hresolved with
  | param found => exact ⟨[], .param found, by simp, fun _ _ => h⟩
  | unknown noParam noImport => exact ⟨[], .unknown noParam noImport, by simp, fun _ _ => h⟩
  | refused index noParam found hrun =>
    obtain ⟨descents, hruns, hsound, -⟩ := hdemands index found
    rw [hrun] at hruns
    refine ⟨descents, .refused noParam found hruns, hsound, ?_⟩
    rintro _ ⟨⟩
  | answered index noParam found hrun =>
    obtain ⟨descents, hruns, hsound, hongoing⟩ := hdemands index found
    rw [hrun] at hruns hongoing
    exact ⟨descents, .answered noParam found hruns, hsound, fun _ _ => hongoing () rfl⟩

theorem fills_ends (hdemand : DemandsEnd convert base given chain demand)
    (d : Dialogue (Except Failure Entries)) (h : Ongoing base chain imports) (s : σ) :
    Ends base chain (Fills convert base given chain d imports s)
      (exec (d.answeredBy (resolveIn (base.scopeWith given) demand)) imports s) := by
  induction d generalizing imports s with
  | done result => exact ⟨[], .done, by simp, fun _ _ => h⟩
  | ask ident next ih =>
    obtain ⟨descents, hruns, hsound, hongoing⟩ := resolves_ends hdemand ident h s
    rcases hrun : exec (resolveIn (base.scopeWith given) demand ident) imports s
      with ⟨r, imports', s'⟩
    rw [hrun] at hruns hongoing
    rw [Dialogue.answeredBy]
    cases r with
    | error e =>
      rw [exec_bind_error hrun]
      refine ⟨descents, .refused hruns, hsound, ?_⟩
      rintro _ ⟨⟩
    | ok value =>
      rw [exec_bind_ok hrun]
      obtain ⟨more, hfills, hmore, hafter⟩ := ih value (hongoing value rfl) s'
      refine ⟨descents ++ more, .answered hruns hfills, ?_, hafter⟩
      exact List.forall_mem_append.2 ⟨hsound, hmore⟩

/-- Templates are filled on a chain if imports can be demanded on it. -/
theorem substituteEntries_ends (hdemand : DemandsEnd convert base given chain demand)
    (templates : Entries) (h : Ongoing base chain imports) (s : σ) :
    Ends base chain (Fills convert base given chain (dialogue templates) imports s)
      (exec (substituteEntries (resolveIn (base.scopeWith given) demand) templates) imports s) := by
  rw [← answeredBy_dialogue]
  exact fills_ends hdemand (dialogue templates) h s

theorem importEvaluators_getElem? (convert : Converter (StateM σ) τ)
    (hold : base.imports[index]? = some old) :
    (importEvaluators convert base.imports)[index]? = some (evaluate convert old.module) := by
  rw [importEvaluators_eq_map, List.getElem?_map, hold, Option.map_some]

theorem demandImport_ends_of_ne (hi : imports[index]? = some site)
    (hindex : index < base.imports.length) (hs : site.state ≠ .unevaluated)
    (h : Ongoing base chain imports) (s : σ) :
    Ends base chain (Demands convert base given chain index imports s)
      (exec (demandImport (base.scopeWith given) (importEvaluators convert base.imports) room chain
        index) imports s) := by
  cases hstate : site.state with
  | unevaluated => exact absurd hstate hs
  | evaluated =>
    rw [exec_demandImport_evaluated s hi hstate]
    exact ⟨[], .evaluated hi hstate, by simp, fun _ _ => h⟩
  | evaluating =>
    have hevaluator := importEvaluators_getElem? convert (List.getElem?_eq_getElem hindex)
    rw [exec_demandImport_evaluating s hi hevaluator hstate]
    refine ⟨[], .evaluating hi hstate, by simp, ?_⟩
    rintro _ ⟨⟩

/-- The evaluator of an import ends with what the import owns, and the import is marked again. -/
theorem worked_ends {imports' : List (Import (Module τ))} {s s' s'' : σ} {params : Entries}
    {result : Except Failure Unit} {module : Module τ} {descents : List (Descent τ)}
    (hold : base.imports[index]? = some old) (htree : EvaluationEnds convert old.module)
    (hi : imports[index]? = some site) (hs : site.state = .unevaluated) (hc : index ∉ chain)
    (hfills : Fills convert base given (chain ++ [index]) (dialogue site.params)
      (mark imports index .evaluating) s ⟨.ok params, imports', s'⟩ descents)
    (hsound : ∀ descent ∈ (.demand base (chain ++ [index]) :: descents), descent.Sound)
    (hongoing : Ongoing base (chain ++ [index]) imports')
    (hrun : (evaluate convert old.module params).run s' = ((result, module), s'')) :
    Ends base chain (Demands convert base given chain index imports s)
      ⟨result, mark (store imports' index module) index (stateAfter result), s''⟩ := by
  have hlt : index < imports'.length := by
    rw [hongoing.length_eq]
    exact (List.getElem?_eq_some_iff.1 hold).1
  have howner : imports'[index]? = some imports'[index] := List.getElem?_eq_getElem hlt
  -- The import was marked while its parameters were filled, and nobody has worked on its module.
  have hactive : imports'[index].state = .evaluating :=
    hongoing.active index (by simp) _ howner
  have howned : imports'[index].module = old.module :=
    hongoing.owned index old _ ⟨hold, howner⟩ (by simp [hactive])
  obtain ⟨more, hevaluates, hmore⟩ := htree params s'
  rw [hrun, ← howned] at hevaluates
  have hall : ∀ descent ∈ (.demand base (chain ++ [index]) :: descents) ++
      .entry base imports'[index].module :: more, descent.Sound := by
    refine List.forall_mem_append.2 ⟨hsound, List.forall_mem_cons.2 ⟨?_, hmore⟩⟩
    exact ⟨old, List.mem_of_getElem? hold, howned.symm⟩
  refine ⟨_, .entered hi hs hfills howner hevaluates, hall, ?_⟩
  rintro a rfl
  exact hongoing.leave howner hc

/-- Work on an import ends if the demands for its parameters do. -/
theorem whileEvaluating_ends (hold : base.imports[index]? = some old)
    (htree : EvaluationEnds convert old.module)
    (hdemand : DemandsEnd convert base given (chain ++ [index]) demand)
    (hlonger : Proper base (chain ++ [index])) (hi : imports[index]? = some site)
    (hs : site.state = .unevaluated) (hc : index ∉ chain) (h : Ongoing base chain imports) (s : σ) :
    Ends base chain (Demands convert base given chain index imports s)
      (exec (Scoped.whileEvaluating index
        (substituteEntries (resolveIn (base.scopeWith given) demand) site.params >>=
          Scoped.runEvaluator index (evaluate convert old.module))) imports s) := by
  obtain ⟨descents, hfills, hsound, hongoing⟩ :=
    substituteEntries_ends hdemand site.params (h.enter hi hs) s
  have hdescents : ∀ descent ∈ (.demand base (chain ++ [index]) :: descents), descent.Sound :=
    List.forall_mem_cons.2 ⟨hlonger.sound, hsound⟩
  have hworked := worked (substituteEntries (resolveIn (base.scopeWith given) demand) site.params)
    (evaluate convert old.module) index (mark imports index .evaluating) s
  rw [exec_whileEvaluating]
  generalize exec (_ >>= _) (mark imports index .evaluating) s = left at hworked ⊢
  cases hworked with
  | refused hrun =>
    rw [hrun] at hfills
    refine ⟨_, .refused hi hs hfills, hdescents, ?_⟩
    rintro _ ⟨⟩
  | ran hrun hev =>
    rw [hrun] at hfills hongoing
    exact worked_ends hold htree hi hs hc hfills hdescents (hongoing _ rfl) hev

/-- Each import that is demanded makes the chain longer, which cannot become longer than the list of
imports. Below it are the modules that the imports own. -/
theorem demandImport_ends (htree : ∀ site ∈ base.imports, EvaluationEnds convert site.module)
    (hproper : Proper base chain) (hroom : room + chain.length = base.imports.length) :
    DemandsEnd convert base given chain (demandImport (base.scopeWith given)
      (importEvaluators convert base.imports) room chain) := by
  induction room generalizing chain with
  | zero =>
    intro index imports s hindex h
    have hlt : index < imports.length := h.length_eq ▸ hindex
    have hi : imports[index]? = some imports[index] := List.getElem?_eq_getElem hlt
    -- Without room every import is on the chain, so that this one closes a cycle.
    have hmem : index ∈ chain := hproper.mem_of_full (by omega) hindex
    have hactive := h.active index hmem _ hi
    exact demandImport_ends_of_ne hi hindex (by simp [hactive]) h s
  | succ room ih =>
    intro index imports s hindex h
    have hlt : index < imports.length := h.length_eq ▸ hindex
    have hi : imports[index]? = some imports[index] := List.getElem?_eq_getElem hlt
    by_cases hs : imports[index].state = .unevaluated
    · have hc : index ∉ chain := by
        intro hmem
        have hactive := h.active index hmem _ hi
        rw [hs] at hactive
        cases hactive
      have hold := List.getElem?_eq_getElem hindex
      have hlonger : Proper base (chain ++ [index]) := hproper.append hindex hc
      rw [exec_demandImport_unevaluated s hi (importEvaluators_getElem? convert hold) hs]
      refine whileEvaluating_ends hold (htree _ (List.getElem_mem hindex)) (ih hlonger ?_) hlonger
        hi hs hc h s
      rw [List.length_append, List.length_singleton]
      omega
    · exact demandImport_ends_of_ne hi hindex hs h s

theorem demandFirst_ends (htree : ∀ site ∈ base.imports, EvaluationEnds convert site.module) :
    DemandsEnd convert base given [] (demandFirst (base.scopeWith given)
      (importEvaluators convert base.imports)) := by
  apply demandImport_ends htree .nil
  simp [importEvaluators_eq_map]

theorem evaluationEnds (convert : Converter (StateM σ) τ) (module : Module τ) :
    EvaluationEnds convert module := by
  induction module using Module.induction with
  | step module ih =>
    intro given s
    cases hstate : module.evaluated with
    | true =>
      rw [evaluate_evaluated hstate]
      exact ⟨[], .evaluated hstate, by simp⟩
    | false =>
      have hends : Ends module [] (Fills convert module given [] (dialogue module.resource.raw)
          module.imports s) (exec (fillOf convert module given) module.imports s) :=
        substituteEntries_ends (demandFirst_ends ih) module.resource.raw (.start module) s
      obtain ⟨descents, hfills, hsound, -⟩ := hends
      rcases hrun : exec (fillOf convert module given) module.imports s with ⟨r, imports, s'⟩
      rw [hrun] at hfills
      cases r with
      | error e =>
        rw [evaluate_error hstate hrun]
        exact ⟨descents, .failed hstate hfills, hsound⟩
      | ok raw =>
        rw [evaluate_ok hstate hrun]
        exact ⟨descents, .filled hstate hfills, hsound⟩

theorem evaluateImport_ends (convert : Converter (StateM σ) τ) (module : Module τ)
    (given : Entries) (name : String) (s : σ) : ∃ descents,
    EvaluatesImport convert module given name s ((evaluateImport convert module given name).run s)
      descents ∧ ∀ descent ∈ descents, descent.Sound := by
  cases hfound : module.imports.findIdx? (·.name = name) with
  | none =>
    rw [run_evaluateImport_unknown hfound]
    exact ⟨[], .unknown hfound, by simp⟩
  | some index =>
    obtain ⟨hindex, -⟩ := List.findIdx?_eq_some_iff_getElem.1 hfound
    have hdemand : DemandsEnd convert module given [] (demandFirst (module.scopeWith given)
        (importEvaluators convert module.imports)) :=
      demandFirst_ends fun site _ => evaluationEnds convert site.module
    obtain ⟨descents, hruns, hsound, -⟩ := hdemand index module.imports s hindex (.start module)
    rw [run_evaluateImport hfound]
    exact ⟨descents, .demanded hfound hruns, hsound⟩

theorem EvaluatesImport.unique {module : Module τ} {name : String} {s : σ}
    {left left' : (Except Failure Unit × Module τ) × σ} {descents descents' : List (Descent τ)}
    (h : EvaluatesImport convert module given name s left descents)
    (h' : EvaluatesImport convert module given name s left' descents') :
    left = left' ∧ descents = descents' := by
  cases h with
  | unknown absent =>
    cases h' with
    | unknown => exact ⟨rfl, rfl⟩
    | demanded found => cases absent.symm.trans found
  | demanded found demands =>
    cases h' with
    | unknown absent => cases absent.symm.trans found
    | demanded found' demands' =>
      cases found.symm.trans found'
      obtain ⟨htrace, rfl⟩ := demands.unique demands'
      cases htrace
      exact ⟨rfl, rfl⟩

end

/-- Every evaluation of a module or of one of its imports has exactly one run, whatever the states
of the imports are. In it, the imports that are evaluated inside one another are always different
ones of one module, and the modules that are entered below a module belong to its imports. -/
theorem evaluate_runs (convert : Converter (StateM σ) τ) (module : Module τ) (given : Entries)
    (s : σ) :
    ((∃ descents, Evaluates convert module given s ((evaluate convert module given).run s)
        descents) ∧
      ∀ left descents, Evaluates convert module given s left descents →
        left = (evaluate convert module given).run s ∧ ∀ descent ∈ descents, descent.Sound) ∧
    ∀ name, (∃ descents, EvaluatesImport convert module given name s
        ((evaluateImport convert module given name).run s) descents) ∧
      ∀ left descents, EvaluatesImport convert module given name s left descents →
        left = (evaluateImport convert module given name).run s ∧
          ∀ descent ∈ descents, descent.Sound := by
  refine ⟨?_, fun name => ?_⟩
  · obtain ⟨descents, hruns, hsound⟩ := evaluationEnds convert module given s
    refine ⟨⟨descents, hruns⟩, fun left others hothers => ?_⟩
    obtain ⟨rfl, rfl⟩ := hothers.unique hruns
    exact ⟨rfl, hsound⟩
  · obtain ⟨descents, hruns, hsound⟩ := evaluateImport_ends convert module given name s
    refine ⟨⟨descents, hruns⟩, fun left others hothers => ?_⟩
    obtain ⟨rfl, rfl⟩ := hothers.unique hruns
    exact ⟨rfl, hsound⟩

end ManifestModules.Module
