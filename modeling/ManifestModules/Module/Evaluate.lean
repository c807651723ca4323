import ManifestModules.Module.Load
import ManifestModules.Template.Substitute

/-! # Evaluating modules

To evaluate a module is to fill the template of its resource. An import is
evaluated when a hole names it for the first time: the templates of its
parameters are filled in the same scope, and its module is evaluated with the
result. What has been evaluated stays, also when a later step fails.
-/

namespace ManifestModules.Module

open Template

variable {m : Type → Type} [Monad m] {τ : Type}

abbrev Converter (m : Type → Type) (τ : Type) := Entries → m (Except Trouble τ)

abbrev Evaluator (m : Type → Type) (τ : Type) := Entries → m (Except Failure Unit × Module τ)

abbrev Scoped (m : Type → Type) (τ : Type) :=
  ExceptT Failure (StateT (List (Import (Module τ))) m)

/-- What a module offers to its templates beside its imports. -/
structure Scope where
  path : String
  params : Entries

/-- A conversion that fails is kept as a result. -/
def convertResource (convert : Converter m τ) (path : String) (raw : Entries) :
    m (Conversion τ) := do
  match ← convert raw with
  | .ok value => return .typed value
  | .error trouble => return .failed (.conversionFailed path trouble.summary)

namespace Scoped

def modifyImport (index : Nat) (change : Import (Module τ) → Import (Module τ)) :
    StateT (List (Import (Module τ))) m Unit :=
  modify fun imports => imports.modify index change

def setState (index : Nat) (state : ImportState) : StateT (List (Import (Module τ))) m Unit :=
  modifyImport index fun site => { site with state }

/-- Marks an import while work on it is done. Afterwards it is evaluated, or again unevaluated if
the work failed. -/
def whileEvaluating (index : Nat) (work : Scoped m τ Unit) : Scoped m τ Unit :=
  ExceptT.mk do
    setState index .evaluating
    match ← work.run with
    | .ok () => setState index .evaluated; return .ok ()
    | .error failure => setState index .unevaluated; return .error failure

def runEvaluator (index : Nat) (evaluator : Evaluator m τ) (params : Entries) :
    Scoped m τ Unit :=
  ExceptT.mk do
    let (result, module) ← (evaluator params : m _)
    modifyImport index fun site => { site with module }
    return result

end Scoped

/-- The chain of imports, each named by the parameters of the one before, that comes back to its
first member. -/
def demandCycle (scope : Scope) (imports : List (Import (Module τ))) (chain : List Nat)
    (index : Nat) : Failure :=
  let nameOf (i : Nat) := (imports[i]?.map (·.name)).getD ""
  let start := if index ∈ chain then chain.dropWhile (· ≠ index) else chain
  .cyclicImport s!"{scope.path}: {chainText ((start ++ [index]).map nameOf)}"

/-- Answers an identifier: parameters come before imports, and an import is demanded first. -/
def resolveIn (scope : Scope) (demand : Nat → Scoped m τ Unit) :
    Resolver (StateT (List (Import (Module τ))) m) := fun ident => do
  let (head, segments) := splitIdent ident
  match scope.params.lookup head with
  | some value => (indexPath ident value segments : Except _ _)
  | none =>
    let imports ← get
    match imports.findIdx? (·.name = head) with
    | none =>
      let names := Table.keys scope.params ++ imports.map (·.name)
      throw (.unknownIdentifier ident scope.path (similarNames head names))
    | some index =>
      demand index
      match ((← get)[index]?).bind (·.module.resource.body?) with
      | some body => (indexPath ident body segments : Except _ _)
      | none => throw (.invalidImportExport head scope.path)

/-- Goes on with an import that is not evaluated yet. To meet one that is being evaluated closes a
cycle; `chain` holds these, outermost first. -/
def visitImport (scope : Scope) (evaluators : List (Evaluator m τ)) (chain : List Nat) (index : Nat)
    (go : Import (Module τ) → Evaluator m τ → Scoped m τ Unit) : Scoped m τ Unit := do
  let imports ← get
  match imports[index]?, evaluators[index]? with
  | some site, some evaluator =>
    match site.state with
    | .evaluated => return ()
    | .evaluating => throw (demandCycle scope imports chain index)
    | .unevaluated => go site evaluator
  | _, _ => return ()

/-- Evaluates an import unless that has been done. `chain` holds the imports being evaluated,
outermost first; `room` bounds how many more can be. -/
def demandImport (scope : Scope) (evaluators : List (Evaluator m τ)) :
    (room : Nat) → (chain : List Nat) → Nat → Scoped m τ Unit
  | 0, chain, index =>
    visitImport scope evaluators chain index fun _ _ => do
      throw (demandCycle scope (← get) chain index)
  | room + 1, chain, index =>
    visitImport scope evaluators chain index fun site evaluator =>
      Scoped.whileEvaluating index do
        let demand := demandImport scope evaluators room (chain ++ [index])
        let params ← substituteEntries (resolveIn scope demand) site.params
        Scoped.runEvaluator index evaluator params

def demandFirst (scope : Scope) (evaluators : List (Evaluator m τ)) (index : Nat) :
    Scoped m τ Unit :=
  demandImport scope evaluators evaluators.length [] index

def fillResource (scope : Scope) (evaluators : List (Evaluator m τ)) (raw : Entries) :
    Scoped m τ Entries :=
  substituteEntries (resolveIn scope (demandFirst scope evaluators)) raw

mutual

/-- Evaluates a module unless that has been done. Its parameters are the given ones over its
defaults. -/
def evaluate (convert : Converter m τ) : Module τ → Evaluator m τ
  | ⟨path, imports, params, evaluated, resource, diagnostics⟩ =>
    let evaluators := importEvaluators convert imports
    fun given => do
      let module : Module τ := ⟨path, imports, params, evaluated, resource, diagnostics⟩
      if evaluated then return (.ok (), module)
      let scope : Scope := ⟨path, module.effectiveParams given⟩
      let (result, imports) ← (fillResource scope evaluators resource.raw).run.run imports
      match result with
      | .error failure => return (.error failure, { module with imports })
      | .ok raw =>
        let typed ← convertResource convert path raw
        return (.ok (), { module with imports, resource := ⟨raw, some typed⟩, evaluated := true })

def importEvaluators (convert : Converter m τ) :
    List (Import (Module τ)) → List (Evaluator m τ)
  | [] => []
  | ⟨_, _, _, _, module⟩ :: rest => evaluate convert module :: importEvaluators convert rest

end

def inScope {α : Type} (module : Module τ) (work : Scoped m τ α) :
    m (Except Failure α × Module τ) := do
  let (result, imports) ← work.run.run module.imports
  return (result, { module with imports })

def evaluateImport (convert : Converter m τ) (module : Module τ) (given : Entries)
    (name : String) : m (Except Failure Unit × Module τ) :=
  match module.imports.findIdx? (·.name = name) with
  | none =>
    let names := module.imports.map (·.name)
    return (.error (.unknownIdentifier name module.path (similarNames name names)), module)
  | some index =>
    let scope : Scope := ⟨module.path, module.effectiveParams given⟩
    module.inScope (demandFirst scope (importEvaluators convert module.imports) index)

/-- Answers one identifier in a module that has exactly the given parameters. -/
def resolveIdent (convert : Converter m τ) (module : Module τ) (params : Entries)
    (ident : String) : m (Except Failure Value × Module τ) :=
  let evaluators := importEvaluators convert module.imports
  module.inScope (resolveIn ⟨module.path, params⟩ (demandFirst ⟨module.path, params⟩ evaluators)
    ident)

def evaluateAll (convert : Converter m τ) (given : Entries) :
    List (Module τ) → ExceptT Failure m (List (Module τ))
  | [] => return []
  | module :: rest => do
    let (result, module) ← (module.evaluate convert given : m _)
    (result : Except _ _)
    return module :: (← evaluateAll convert given rest)

end ManifestModules.Module
