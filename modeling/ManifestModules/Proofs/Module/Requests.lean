import ManifestModules.Proofs.Module.Evaluation
import ManifestModules.Proofs.Module.Loading

/-!
# Requests of a session

A session loads and evaluates modules, as often as it likes and in any order. What it does is
uniform in the source and in the converter, as loading and evaluation are.
-/

namespace ManifestModules.Module

variable {τ τ' : Type}

/-- What can be asked for in a session. The trees that were made so far are kept on a shelf. -/
inductive Request where
  | load (path : String)
  | loadImport (path : String)
  | evaluate (path : String) (given : Entries)
  | call (tree : Nat) (call : Call)

section

variable {m : Type → Type} [Monad m] (source : Source m) (limit : Nat) (convert : Converter m τ)

def shelve (shelf : List (Module τ)) :
    Except Failure (List (Module τ)) → Except Failure Unit × List (Module τ)
  | .ok modules => (.ok (), shelf ++ modules)
  | .error failure => (.error failure, shelf)

def loadAndEvaluate (path : String) (given : Entries) : ExceptT Failure m (List (Module τ)) := do
  evaluateAll convert given (← load source limit path)

def respond (shelf : List (Module τ)) : Request → m (Except Failure Unit × List (Module τ))
  | .load path => do return shelve shelf (← (load source limit path).run)
  | .loadImport path => do
    return shelve shelf ((← (loadImport source limit path).run).map fun module => [module])
  | .evaluate path given => do
    return shelve shelf (← (loadAndEvaluate source limit convert path given).run)
  | .call tree call =>
    match shelf[tree]? with
    | none => return (.ok (), shelf)
    | some module => do
      let (result, module) ← call.run convert module
      return (result, shelf.set tree module)

def respondAll : List Request → List (Module τ) → m (List (Except Failure Unit) × List (Module τ))
  | [], shelf => return ([], shelf)
  | request :: rest, shelf => do
    let (result, shelf) ← respond source limit convert shelf request
    let (results, shelf) ← respondAll rest shelf
    return (result :: results, shelf)

end

/-- Two sessions have the same outcomes, and alike trees on their shelves. -/
structure SameShelf {ν : Type} (l : Likeness τ τ') (left : ν × List (Module τ))
    (left' : ν × List (Module τ')) : Prop where
  results : left'.1 = left.1
  shelf : List.Forall₂ (l.Alike .still) left.2 left'.2

theorem forall₂_set {α β : Type} {R : α → β → Prop} {as : List α} {bs : List β} {a : α} {b : β}
    (h : List.Forall₂ R as bs) (hab : R a b) (i : Nat) :
    List.Forall₂ R (as.set i a) (bs.set i b) := by
  induction h generalizing i with
  | nil => exact .nil
  | cons hfirst hrest ih =>
    cases i with
    | zero => exact .cons hab hrest
    | succ i => exact .cons hfirst (ih i)

section

variable {l : Likeness τ τ'} {shelf : List (Module τ)} {shelf' : List (Module τ')}
  (hshelf : List.Forall₂ (l.Alike .still) shelf shelf')
include hshelf

theorem SameShelf.shelve {loaded : Except Failure (List (Module τ))}
    {loaded' : Except Failure (List (Module τ'))}
    (h : SameOutcome (List.Forall₂ (l.Alike .still)) loaded loaded') :
    SameShelf l (shelve shelf loaded) (shelve shelf' loaded') := by
  cases h with
  | ok h => exact ⟨rfl, List.rel_append hshelf h⟩
  | error failure => exact ⟨rfl, hshelf⟩

variable {m m' : Type → Type} [Monad m] [Monad m'] [LawfulMonad m] [LawfulMonad m']
  {r : Relator m m'} {source : Source m} {source' : Source m'} {convert : Converter m τ}
  {convert' : Converter m' τ'} (hserved : (loading r).Served source source')
  (hloads : LoadsAlike (l.Alike .still)) (hconvert : l.Converts r convert convert')
include hserved hloads hconvert

theorem respond_uniform (limit : Nat) (request : Request) :
    r.Rel (SameShelf l) (respond source limit convert shelf request)
      (respond source' limit convert' shelf' request) := by
  cases request with
  | load path =>
    apply r.bind (hserved.load hloads limit path)
    intro loaded loaded' hloaded
    exact r.pure (.shelve hshelf hloaded)
  | loadImport path =>
    apply r.bind (hserved.loadImport hloads limit path)
    intro loaded loaded' hloaded
    apply r.pure
    cases hloaded with
    | ok hmodule => exact .shelve hshelf (.ok (.cons hmodule .nil))
    | error failure => exact .shelve hshelf (.error failure)
  | evaluate path given =>
    have hall : r.failing.Rel (List.Forall₂ (l.Alike .still))
        (loadAndEvaluate source limit convert path given)
        (loadAndEvaluate source' limit convert' path given) :=
      r.failing.bind (hserved.load hloads limit path) fun _ _ h =>
        Likeness.evaluateAll hconvert given h
    apply r.bind hall
    intro loaded loaded' hloaded
    exact r.pure (.shelve hshelf hloaded)
  | call tree call =>
    simp only [respond]
    by_cases htree : tree < shelf.length
    · have htree' : tree < shelf'.length := hshelf.length_eq ▸ htree
      rw [List.getElem?_eq_getElem htree, List.getElem?_eq_getElem htree']
      have hcall := Likeness.call hconvert call (hshelf.get htree htree')
      rw [Call.moved_still] at hcall
      apply r.bind hcall
      intro left left' hleft
      exact r.pure ⟨hleft.outcome, forall₂_set hshelf hleft.alike tree⟩
    · have htree' : ¬ tree < shelf'.length := hshelf.length_eq ▸ htree
      rw [List.getElem?_eq_none (by omega), List.getElem?_eq_none (by omega)]
      exact r.pure ⟨rfl, hshelf⟩

theorem respondAll_uniform (limit : Nat) (requests : List Request) :
    r.Rel (SameShelf l) (respondAll source limit convert requests shelf)
      (respondAll source' limit convert' requests shelf') := by
  induction requests generalizing shelf shelf' with
  | nil => exact r.pure ⟨rfl, hshelf⟩
  | cons request rest ih =>
    apply r.bind (respond_uniform hshelf hserved hloads hconvert limit request)
    rintro ⟨result, shelf⟩ ⟨_, shelf'⟩ ⟨hresult, hshelf⟩
    apply r.bind (ih hshelf)
    rintro ⟨results, shelf⟩ ⟨_, shelf'⟩ ⟨hresults, hshelf⟩
    simp only at hresult hresults
    subst hresult hresults
    exact r.pure ⟨rfl, hshelf⟩

end

end ManifestModules.Module
