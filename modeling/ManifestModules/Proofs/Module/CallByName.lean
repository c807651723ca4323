import ManifestModules.Module.Evaluate
import Mathlib.Data.List.Basic
import Mathlib.Data.List.Nodup

/-!
# Evaluation by name

The meaning of a module tree without any progress: an import is evaluated from the beginning at
every hole that names it, and nothing is remembered. It is cyclic exactly if it is named again
while the templates of its own parameters are filled. Imports may be exempted; these stand for the
resource they have.
-/

namespace ManifestModules.Module

open Template

variable {τ : Type}

/-- The positions below `n` that are not on a chain. -/
def room (n : Nat) (chain : List Nat) : Nat :=
  ((List.range n).filter (· ∉ chain)).length

theorem room_append_lt {n index : Nat} {chain : List Nat} (h : index < n) (hc : index ∉ chain) :
    room n (chain ++ [index]) < room n chain := by
  have hsplit : (List.range n).filter (· ∉ chain ++ [index]) =
      ((List.range n).filter (· ∉ chain)).filter (· ≠ index) := by
    rw [List.filter_filter]
    congr 1
    funext i
    by_cases hi : i = index <;> simp [hi]
  have hmem : index ∈ (List.range n).filter (· ∉ chain) := by
    simp [h, hc]
  rw [room, room, hsplit]
  exact List.length_filter_lt_length_iff_exists.2 ⟨index, hmem, by simp⟩

theorem room_nil (n : Nat) : room n [] = n := by
  simp [room]

def filled (resolve : Resolver Id) (templates : Entries) : Except Failure Entries :=
  (substituteEntries resolve templates).run.run

def answerFrom (scope : Scope) (ident head : String) (segments : List String) :
    Option Value → Except Failure Value
  | some body => indexPath ident body segments
  | none => .error (.invalidImportExport head scope.path)

/-- Answers an identifier: parameters come before imports, whose resource bodies are given by
position. -/
def answer (scope : Scope) (imports : List (Import (Module τ)))
    (bodyOf : Nat → Except Failure (Option Value)) : Resolver Id := fun ident =>
  let (head, segments) := splitIdent ident
  match scope.params.lookup head with
  | some value => ExceptT.mk (indexPath ident value segments)
  | none =>
    match imports.findIdx? (·.name = head) with
    | none =>
      let names := Table.keys scope.params ++ imports.map (·.name)
      throw (.unknownIdentifier ident scope.path (similarNames head names))
    | some index => do
      let body ← ExceptT.mk (bodyOf index)
      ExceptT.mk (answerFrom scope ident head segments body)

section

variable (kept : Import (Module τ) → Bool)

/-- The resource body of an import, evaluated from the beginning. `chain` holds the imports whose
parameters are being filled, outermost first. -/
def importBody (scope : Scope) (imports : List (Import (Module τ)))
    (calls : List (Entries → Except Failure Entries)) (chain : List Nat) (index : Nat) :
    Except Failure (Option Value) :=
  match _h : imports[index]?, calls[index]? with
  | some site, some call =>
    if kept site then .ok site.module.resource.body?
    else if _hc : index ∈ chain then .error (demandCycle scope imports chain index)
    else do
      let bodyOf := importBody scope imports calls (chain ++ [index])
      let params ← filled (answer scope imports bodyOf) site.params
      let raw ← call params
      return (Table.onlyEntry? raw).map (·.2)
  | _, _ => .ok none
termination_by room imports.length chain
decreasing_by exact room_append_lt (List.getElem?_eq_some_iff.1 _h).1 _hc

mutual

/-- The resource of a module with the given parameters, evaluated by name. -/
def callByName : Module τ → Entries → Except Failure Entries
  | ⟨path, imports, params, evaluated, resource, diagnostics⟩ =>
    let calls := importCalls imports
    fun given =>
      let module : Module τ := ⟨path, imports, params, evaluated, resource, diagnostics⟩
      let scope : Scope := ⟨path, module.effectiveParams given⟩
      filled (answer scope imports (importBody kept scope imports calls [])) resource.raw

def importCalls : List (Import (Module τ)) → List (Entries → Except Failure Entries)
  | [] => []
  | ⟨_, _, _, _, module⟩ :: rest => callByName module :: importCalls rest

end

theorem importCalls_eq_map (imports : List (Import (Module τ))) :
    importCalls kept imports = imports.map fun site => callByName kept site.module := by
  induction imports with
  | nil => rfl
  | cons site rest ih =>
    rcases site with ⟨name, path, params, state, module⟩
    rw [importCalls, ih, List.map_cons]

variable (module : Module τ) (given : Entries)

def scopeWith (module : Module τ) (given : Entries) : Scope :=
  ⟨module.path, module.effectiveParams given⟩

def bodyByName (chain : List Nat) (index : Nat) : Except Failure (Option Value) :=
  importBody kept (module.scopeWith given) module.imports (importCalls kept module.imports) chain
    index

def paramsByName (chain : List Nat) (index : Nat) (site : Import (Module τ)) :
    Except Failure Entries :=
  filled (answer (module.scopeWith given) module.imports
    (bodyByName kept module given (chain ++ [index]))) site.params

theorem callByName_eq : callByName kept module given =
    filled (answer (module.scopeWith given) module.imports (bodyByName kept module given []))
      module.resource.raw := by
  rcases module with ⟨path, imports, params, evaluated, resource, diagnostics⟩
  rfl

variable {kept module given} {chain : List Nat} {index : Nat} {site : Import (Module τ)}

theorem bodyByName_absent (h : module.imports[index]? = none) :
    bodyByName kept module given chain index = .ok none := by
  rw [bodyByName, importBody, h]

private theorem importCalls_getElem? (h : module.imports[index]? = some site) :
    (importCalls kept module.imports)[index]? = some (callByName kept site.module) := by
  rw [importCalls_eq_map, List.getElem?_map, h, Option.map_some]

theorem bodyByName_kept (h : module.imports[index]? = some site) (hk : kept site = true) :
    bodyByName kept module given chain index = .ok site.module.resource.body? := by
  rw [bodyByName, importBody, h, importCalls_getElem? h]
  simp only [hk, if_true]

theorem bodyByName_cycle (h : module.imports[index]? = some site) (hk : kept site = false)
    (hc : index ∈ chain) : bodyByName kept module given chain index =
      .error (demandCycle (module.scopeWith given) module.imports chain index) := by
  rw [bodyByName, importBody, h, importCalls_getElem? h]
  simp only [hk, Bool.false_eq_true, if_false, hc, dif_pos]

theorem bodyByName_fresh (h : module.imports[index]? = some site) (hk : kept site = false)
    (hc : index ∉ chain) : bodyByName kept module given chain index =
      (do
        let params ← paramsByName kept module given chain index site
        let raw ← callByName kept site.module params
        return (Table.onlyEntry? raw).map (·.2)) := by
  rw [bodyByName, importBody, h, importCalls_getElem? h]
  simp only [hk, Bool.false_eq_true, if_false, hc, dif_neg, not_false_eq_true]
  rfl

end

end ManifestModules.Module
