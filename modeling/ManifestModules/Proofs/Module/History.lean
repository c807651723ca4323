import ManifestModules.Proofs.Module.Calls
import Mathlib.Algebra.Ring.Nat

/-!
# Histories of module trees

All that ever happens to a module tree are two kinds of moves, anywhere in the tree: an import is
marked, or the evaluation of a module is completed, which is when its resource is converted. What
histories of such moves can do follows from what one move can do.
-/

namespace ManifestModules.Module

variable {σ τ : Type}

/-- A completed evaluation: its place, the final resource and what it was converted to. -/
structure Completion (τ : Type) where
  place : List Nat
  raw : Entries
  typed : Conversion τ

def Completion.under (index : Nat) (completion : Completion τ) : Completion τ :=
  { completion with place := index :: completion.place }

/-- One move of a module tree and its surroundings. Only a completion converts, and only what has
not been evaluated is completed. -/
inductive Moves (convert : Converter (StateM σ) τ) :
    Module τ → σ → Option (Completion τ) → Module τ → σ → Prop
  | mark {module : Module τ} {s : σ} (index : Nat) (state : ImportState) :
    Moves convert module s none { module with imports := mark module.imports index state } s
  | complete {module : Module τ} {s s' : σ} {raw : Entries} {typed : Conversion τ}
    (pending : module.evaluated = false)
    (converted : (convertResource convert module.path raw).run s = (typed, s')) :
    Moves convert module s (some ⟨[], raw, typed⟩)
      { module with resource := ⟨raw, some typed⟩, evaluated := true } s'
  | within {module : Module τ} {s s' : σ} {index : Nat} {site : Import (Module τ)}
    {completion : Option (Completion τ)} {inner : Module τ}
    (found : module.imports[index]? = some site)
    (moves : Moves convert site.module s completion inner s') :
    Moves convert module s (completion.map (·.under index))
      { module with imports := store module.imports index inner } s'

inductive History (convert : Converter (StateM σ) τ) (start : Module τ) (s : σ) :
    List (Completion τ) → Module τ → σ → Prop
  | start : History convert start s [] start s
  | move {done : List (Completion τ)} {completion : Option (Completion τ)}
    {module module' : Module τ} {s' s'' : σ} (before : History convert start s done module s')
    (moves : Moves convert module s' completion module' s'') :
    History convert start s (done ++ completion.toList) module' s''

variable {convert : Converter (StateM σ) τ}

theorem History.single {module module' : Module τ} {s s' : σ}
    {completion : Option (Completion τ)} (h : Moves convert module s completion module' s') :
    History convert module s completion.toList module' s' :=
  .move .start h

theorem History.trans {module module' module'' : Module τ} {s s' s'' : σ}
    {done later : List (Completion τ)} (h : History convert module s done module' s')
    (h' : History convert module' s' later module'' s'') :
    History convert module s (done ++ later) module'' s'' := by
  induction h' with
  | start =>
    rw [List.append_nil]
    exact h
  | move _ moves ih =>
    rw [← List.append_assoc]
    exact ih.move moves

theorem store_self {imports : List (Import (Module τ))} {index : Nat} {site : Import (Module τ)}
    (h : imports[index]? = some site) : store imports index site.module = imports := by
  refine List.ext_getElem? fun i => ?_
  rw [store, List.getElem?_modify]
  by_cases hi : index = i
  · subst hi
    simp [h]
  · simp [hi]

theorem store_store (imports : List (Import (Module τ))) (index : Nat) (module module' : Module τ) :
    store (store imports index module) index module' = store imports index module' := by
  rw [store, store, List.modify_modify_eq]
  rfl

theorem getElem?_store_self {imports : List (Import (Module τ))} {index : Nat}
    {site : Import (Module τ)} (h : imports[index]? = some site) (module : Module τ) :
    (store imports index module)[index]? = some { site with module } := by
  simp [store, h]

/-- What happens to the module of an import happens to the tree of the importer. -/
theorem History.within {module inner : Module τ} {s s' : σ} {index : Nat}
    {site : Import (Module τ)} {done : List (Completion τ)}
    (hi : module.imports[index]? = some site) (h : History convert site.module s done inner s') :
    History convert module s (done.map (·.under index))
      { module with imports := store module.imports index inner } s' := by
  rcases module with ⟨path, imports, params, evaluated, resource, diagnostics⟩
  induction h with
  | start =>
    rw [store_self hi]
    exact .start
  | @move done completion current inner s' s'' _ moves ih =>
    have hmove : Moves convert
        ⟨path, store imports index current, params, evaluated, resource, diagnostics⟩ s'
        (completion.map (·.under index))
        ⟨path, store (store imports index current) index inner, params, evaluated, resource,
          diagnostics⟩ s'' :=
      .within (getElem?_store_self hi current) moves
    rw [store_store] at hmove
    have hlist : (completion.map (·.under index)).toList =
        completion.toList.map (·.under index) := by
      cases completion <;> rfl
    rw [List.map_append, ← hlist]
    exact ih.move hmove

section

mutual

def evaluatedCount : Module τ → Nat
  | ⟨_, imports, _, evaluated, _, _⟩ => evaluated.toNat + importsEvaluated imports

def importsEvaluated : List (Import (Module τ)) → Nat
  | [] => 0
  | ⟨_, _, _, _, module⟩ :: rest => module.evaluatedCount + importsEvaluated rest

end

theorem evaluatedCount_eq (module : Module τ) :
    module.evaluatedCount = module.evaluated.toNat + importsEvaluated module.imports := by
  rcases module with ⟨path, imports, params, evaluated, resource, diagnostics⟩
  rw [evaluatedCount]

theorem importsEvaluated_eq_sum (imports : List (Import (Module τ))) :
    importsEvaluated imports = (imports.map (·.module.evaluatedCount)).sum := by
  induction imports with
  | nil => rfl
  | cons site rest ih =>
    rcases site with ⟨name, path, params, state, module⟩
    rw [importsEvaluated, ih, List.map_cons, List.sum_cons]

theorem importsEvaluated_mark (imports : List (Import (Module τ))) (index : Nat)
    (state : ImportState) :
    importsEvaluated (mark imports index state) = importsEvaluated imports := by
  rw [importsEvaluated_eq_sum, importsEvaluated_eq_sum, mark]
  congr 1
  refine List.ext_getElem? fun i => ?_
  rw [List.getElem?_map, List.getElem?_map, List.getElem?_modify]
  cases imports[i]? with
  | none => rfl
  | some site => by_cases hi : index = i <;> simp [hi]

theorem importsEvaluated_store {imports : List (Import (Module τ))} {index : Nat}
    {site : Import (Module τ)} (h : imports[index]? = some site) (module : Module τ) :
    importsEvaluated (store imports index module) + site.module.evaluatedCount =
      importsEvaluated imports + module.evaluatedCount := by
  induction imports generalizing index with
  | nil => cases h
  | cons first rest ih =>
    rcases first with ⟨name, path, params, state, inner⟩
    cases index with
    | zero =>
      cases h
      simp only [store, List.modify_zero_cons, importsEvaluated]
      omega
    | succ index =>
      have hrest := ih h
      simp only [store, List.modify_succ_cons, importsEvaluated] at hrest ⊢
      omega

/-- What can be seen of a place in a tree: whether its module is evaluated, and the resource. -/
def look (module : Module τ) (place : List Nat) : Option (Bool × Resource τ) :=
  (module.moduleAt? place).map fun target => (target.evaluated, target.resource)

theorem look_nil (module : Module τ) : module.look [] = some (module.evaluated, module.resource) :=
  rfl

theorem look_cons (module : Module τ) (index : Nat) (place : List Nat) :
    module.look (index :: place) =
      module.imports[index]?.bind fun site => site.module.look place := by
  rw [look, moduleAt?]
  cases module.imports[index]? <;> rfl

/-- Marks cannot be seen. -/
theorem look_mark (module : Module τ) (index : Nat) (state : ImportState) (place : List Nat) :
    look { module with imports := mark module.imports index state } place = module.look place := by
  cases place with
  | nil => rfl
  | cons i place =>
    rw [look_cons, look_cons, mark, List.getElem?_modify]
    cases module.imports[i]? with
    | none => rfl
    | some site => by_cases hi : index = i <;> simp [hi]

theorem look_store {module : Module τ} {index : Nat} {site : Import (Module τ)}
    (h : module.imports[index]? = some site) (inner : Module τ) (i : Nat) (place : List Nat) :
    look { module with imports := store module.imports index inner } (i :: place) =
      if i = index then inner.look place else module.look (i :: place) := by
  rw [look_cons, look_cons, store, List.getElem?_modify]
  by_cases hi : index = i
  · subst hi
    simp [h]
  · simp [hi, Ne.symm hi]

/-- What a move does: nothing that can be seen, or it completes what was not evaluated. -/
structure Effects (convert : Converter (StateM σ) τ) (module : Module τ) (s : σ)
    (completion : Option (Completion τ)) (module' : Module τ) (s' : σ) : Prop where
  idle : completion = none → s' = s
  pending : ∀ done, completion = some done → ∃ resource, module.look done.place =
    some (false, resource)
  converted : ∀ done, completion = some done → ∃ path,
    (convertResource convert path done.raw).run s = (done.typed, s')
  looks : ∀ place, module'.look place =
    if place ∈ completion.map (·.place) then
      completion.map fun done => (true, ⟨done.raw, some done.typed⟩)
    else module.look place
  count : module'.evaluatedCount = module.evaluatedCount + completion.toList.length

theorem Effects.mark (module : Module τ) (s : σ) (index : Nat) (state : ImportState) :
    Effects convert module s none { module with imports := mark module.imports index state } s := by
  refine ⟨fun _ => rfl, ?_, ?_, fun place => ?_, ?_⟩
  · intro done hdone
    cases hdone
  · intro done hdone
    cases hdone
  · simpa using look_mark module index state place
  · rw [evaluatedCount_eq, evaluatedCount_eq, importsEvaluated_mark]
    rfl

theorem Effects.complete {module : Module τ} {s s' : σ} {raw : Entries} {typed : Conversion τ}
    (pending : module.evaluated = false)
    (converted : (convertResource convert module.path raw).run s = (typed, s')) :
    Effects convert module s (some ⟨[], raw, typed⟩)
      { module with resource := ⟨raw, some typed⟩, evaluated := true } s' := by
  refine ⟨fun hnone => (by cases hnone), ?_, ?_, fun place => ?_, ?_⟩
  · rintro done ⟨⟩
    exact ⟨module.resource, by rw [look_nil, pending]⟩
  · rintro done ⟨⟩
    exact ⟨module.path, converted⟩
  · cases place with
    | nil => rfl
    | cons i place => rfl
  · rw [evaluatedCount_eq, evaluatedCount_eq, pending]
    change 1 + importsEvaluated module.imports = 0 + importsEvaluated module.imports + 1
    omega

theorem Effects.within {module inner : Module τ} {s s' : σ} {index : Nat}
    {site : Import (Module τ)} {completion : Option (Completion τ)}
    (found : module.imports[index]? = some site)
    (h : Effects convert site.module s completion inner s') :
    Effects convert module s (completion.map (·.under index))
      { module with imports := store module.imports index inner } s' := by
  refine ⟨fun hnone => h.idle (Option.map_eq_none_iff.1 hnone), ?_, ?_, fun place => ?_, ?_⟩
  · intro done hdone
    obtain ⟨done, rfl, rfl⟩ := Option.map_eq_some_iff.1 hdone
    obtain ⟨resource, hlook⟩ := h.pending done rfl
    exact ⟨resource, by rw [Completion.under, look_cons, found, Option.bind_some, hlook]⟩
  · intro done hdone
    obtain ⟨done, rfl, rfl⟩ := Option.map_eq_some_iff.1 hdone
    exact h.converted done rfl
  · cases place with
    | nil => cases completion <;> simp [Completion.under, look_nil]
    | cons i place =>
      rw [look_store found, h.looks place]
      by_cases hi : i = index
      · subst hi
        cases completion <;> simp [Completion.under, look_cons, found]
      · cases completion <;> simp [Completion.under, hi, Ne.symm hi]
  · have hstore := importsEvaluated_store found inner
    have hlength : (completion.map (·.under index)).toList.length = completion.toList.length := by
      cases completion <;> rfl
    have hcount := h.count
    rw [evaluatedCount_eq, evaluatedCount_eq module, hlength]
    simp only
    omega

theorem Moves.effects {module module' : Module τ} {s s' : σ}
    {completion : Option (Completion τ)} (h : Moves convert module s completion module' s') :
    Effects convert module s completion module' s' := by
  induction h with
  | mark index state => exact .mark _ _ index state
  | complete pending converted => exact .complete pending converted
  | within found _ ih => exact .within found ih

/-- What can be said of a tree after a history: every completion is of a place of its own, where
nothing had been evaluated before and nothing changes afterwards. -/
structure Ledger (start : Module τ) (done : List (Completion τ)) (module : Module τ) : Prop where
  once : (done.map (·.place)).Nodup
  pending : ∀ completion ∈ done, ∃ resource, start.look completion.place = some (false, resource)
  kept : ∀ completion ∈ done,
    module.look completion.place = some (true, ⟨completion.raw, some completion.typed⟩)
  untouched : ∀ place ∉ done.map (·.place), module.look place = start.look place
  count : module.evaluatedCount = start.evaluatedCount + done.length

variable {start module module' : Module τ} {s s' s'' : σ} {done : List (Completion τ)}

theorem Ledger.refl (module : Module τ) : Ledger module [] module := by
  refine ⟨List.nodup_nil, ?_, ?_, fun _ _ => rfl, rfl⟩
  · intro completion hmem
    cases hmem
  · intro completion hmem
    cases hmem

theorem Ledger.idle (h : Ledger start done module)
    (hmove : Effects convert module s none module' s') : Ledger start done module' := by
  have hlooks (place : List Nat) : module'.look place = module.look place := by
    simpa using hmove.looks place
  refine ⟨h.once, h.pending, fun completion hmem => ?_, fun place hplace => ?_, ?_⟩
  · rw [hlooks, h.kept completion hmem]
  · rw [hlooks, h.untouched place hplace]
  · rw [hmove.count, h.count]
    rfl

/-- A completion is entered: its place had not been completed before. -/
theorem Ledger.complete {new : Completion τ} (h : Ledger start done module)
    (hmove : Effects convert module s (some new) module' s') :
    Ledger start (done ++ [new]) module' := by
  obtain ⟨resource, hbefore⟩ := hmove.pending new rfl
  have hnew : new.place ∉ done.map (·.place) := by
    intro hmem
    obtain ⟨completion, hdone, hplace⟩ := List.mem_map.1 hmem
    rw [← hplace, h.kept completion hdone] at hbefore
    cases hbefore
  have hafter : module'.look new.place = some (true, ⟨new.raw, some new.typed⟩) := by
    simpa using hmove.looks new.place
  have hother {place : List Nat} (hplace : place ≠ new.place) :
      module'.look place = module.look place := by
    simpa [Ne.symm hplace] using hmove.looks place
  refine ⟨?_, ?_, ?_, ?_, ?_⟩
  · rw [List.map_append, List.map_singleton, ← List.concat_eq_append]
    exact h.once.concat hnew
  · rw [List.forall_mem_append, List.forall_mem_singleton]
    exact ⟨h.pending, resource, by rw [← h.untouched new.place hnew, hbefore]⟩
  · rw [List.forall_mem_append, List.forall_mem_singleton]
    refine ⟨fun completion hmem => ?_, hafter⟩
    rw [hother fun hplace => hnew (hplace ▸ List.mem_map_of_mem hmem), h.kept completion hmem]
  · intro place hplace
    rw [List.map_append, List.mem_append, not_or, List.map_singleton,
      List.mem_singleton] at hplace
    rw [hother hplace.2, h.untouched place hplace.1]
  · rw [hmove.count, h.count, List.length_append]
    exact Nat.add_assoc _ _ _

theorem Ledger.move {completion : Option (Completion τ)} (h : Ledger start done module)
    (hmove : Effects convert module s completion module' s') :
    Ledger start (done ++ completion.toList) module' := by
  cases completion with
  | none =>
    rw [Option.toList_none, List.append_nil]
    exact h.idle hmove
  | some new => exact h.complete hmove

/-- Every history keeps the ledger. -/
theorem History.ledger (h : History convert start s done module s') : Ledger start done module := by
  induction h with
  | start => exact .refl start
  | move _ moves ih => exact ih.move moves.effects

/-- What is evaluated stays as it is. -/
theorem Ledger.frozen (h : Ledger start done module) {place : List Nat} {resource : Resource τ}
    (hlook : start.look place = some (true, resource)) :
    module.look place = some (true, resource) := by
  rw [h.untouched place ?_, hlook]
  intro hmem
  obtain ⟨completion, hdone, rfl⟩ := List.mem_map.1 hmem
  obtain ⟨other, hpending⟩ := h.pending completion hdone
  rw [hlook] at hpending
  cases hpending

/-- Converts as `convert` does and keeps a list of what was converted. -/
def recording (convert : Converter (StateM σ) τ) : Converter (StateM (List Entries × σ)) τ :=
  fun raw (log, s) =>
    let (result, s') := (convert raw).run s
    (result, (log ++ [raw], s'))

theorem run_convertResource (convert : Converter (StateM σ) τ) (path : String) (raw : Entries)
    (s : σ) : (convertResource convert path raw).run s =
      let left := (convert raw).run s
      (match left.1 with
        | .ok value => .typed value
        | .error trouble => .failed (.conversionFailed path trouble.summary), left.2) := by
  simp only [convertResource, StateT.run_bind]
  rcases (convert raw).run s with ⟨r, s'⟩
  cases r <;> rfl

theorem run_convertResource_recording (convert : Converter (StateM σ) τ) (path : String)
    (raw : Entries) (log : List Entries) (s : σ) :
    (convertResource (recording convert) path raw).run (log, s) =
      (((convertResource convert path raw).run s).1,
        (log ++ [raw], ((convertResource convert path raw).run s).2)) := by
  rw [run_convertResource, run_convertResource]
  rfl

/-- The record holds what has been completed. -/
theorem Moves.record {convert : Converter (StateM σ) τ} {completion : Option (Completion τ)}
    {log log' : List Entries}
    (h : Moves (recording convert) module (log, s) completion module' (log', s')) :
    log' = log ++ completion.toList.map (·.raw) := by
  have heffects := h.effects
  cases completion with
  | none =>
    have hsame := congrArg Prod.fst (heffects.idle rfl)
    simpa using hsame
  | some done =>
    obtain ⟨path, hconverted⟩ := heffects.converted done rfl
    rw [run_convertResource_recording] at hconverted
    have hlog := congrArg (·.2.1) hconverted
    simpa using hlog.symm

theorem History.record {convert : Converter (StateM σ) τ} {log : List Entries}
    {w : List Entries × σ} (h : History (recording convert) start (log, s) done module w) :
    w.1 = log ++ done.map (·.raw) := by
  induction h with
  | start => simp
  | @move done completion module module' w w' _ moves ih =>
    rw [moves.record, ih, List.map_append, List.append_assoc]

end

end ManifestModules.Module
