import ManifestModules.Proofs.Module.Consistent
import ManifestModules.Proofs.Module.History

/-!
# Evaluations as histories

Every call on a loaded tree is a history of moves. The evaluator of an import works on the module
that the import had when the evaluation of the importer began; that this is still the module in the
tree, as long as nothing has failed, is what makes its moves moves of the tree.
-/

namespace ManifestModules.Module

open Template

variable {σ τ α β : Type}

/-- Imports that are not evaluated have the modules that they had at the beginning. -/
def Untouched (start imports : List (Import (Module τ))) : Prop :=
  ∀ i was site, Became start imports i was site → site.state ≠ .evaluated →
    site.module = was.module

section

variable (convert : Converter (StateM σ) τ) (base frame : Module τ) (chain : List Nat)

/-- What happened to the imports of a module is a history, and without a failure only evaluated
imports have changed. -/
structure Accounted (imports : List (Import (Module τ))) (s : σ)
    (trace : Trace (List (Import (Module τ))) σ α) : Prop where
  history : ∃ done, History convert { frame with imports } s done
    { frame with imports := trace.state } trace.world
  untouched : ∀ a, trace.result = .ok a → Untouched frame.imports trace.state

def Accounts (x : Scoped (StateM σ) τ α) : Prop :=
  Upholds base chain x ∧ ∀ imports s, Holds base chain imports → Untouched frame.imports imports →
    Accounted convert frame imports s (exec x imports s)

def Recounting (evaluators : List (Evaluator (StateM σ) τ)) : Prop :=
  ∀ (i : Nat) (was : Import (Module τ)) (evaluator : Evaluator (StateM σ) τ),
    frame.imports[i]? = some was → evaluators[i]? = some evaluator → ∀ params s, ∃ done,
      History convert was.module s done ((evaluator params).run s).1.2
        ((evaluator params).run s).2

end

section

variable {convert : Converter (StateM σ) τ} {base frame : Module τ} {chain : List Nat}
  {start imports imports' : List (Import (Module τ))}

theorem Untouched.refl (imports : List (Import (Module τ))) : Untouched imports imports := by
  intro i was site hb _
  cases hb.old.symm.trans hb.new
  rfl

theorem Untouched.changed {index : Nat} {site' : Import (Module τ)} (h : Untouched start imports)
    (hchanged : Changed imports imports' index site')
    (hindex : ∀ was, start[index]? = some was → site'.state ≠ .evaluated →
      site'.module = was.module) : Untouched start imports' := by
  intro i was now hb hs
  obtain ⟨rfl, rfl⟩ | ⟨_, hi⟩ := hchanged.getElem?_cases hb.new
  · exact hindex was hb.old hs
  · exact h i was now ⟨hb.old, hi⟩ hs

theorem Untouched.enter {index : Nat} {site : Import (Module τ)} (h : Untouched start imports)
    (hi : imports[index]? = some site) (hs : site.state = .unevaluated) :
    Untouched start (mark imports index .evaluating) := by
  refine h.changed (.mark _ hi) fun was hwas _ => ?_
  exact h index was site ⟨hwas, hi⟩ (by rw [hs]; simp)

theorem Accounted.refl {result : Except Failure α} (s : σ) (h : Untouched frame.imports imports) :
    Accounted convert frame imports s ⟨result, imports, s⟩ :=
  ⟨⟨[], .start⟩, fun _ _ => h⟩

def accounts (convert : Converter (StateM σ) τ) (base frame : Module τ) (chain : List Nat) :
    Property (StateT (List (Import (Module τ))) (StateM σ)) where
  Rel _ x _ := Accounts convert base frame chain x
  pure a := ⟨(upholds σ base chain).pure a, fun _ s _ h => .refl s h⟩
  bind {α β asked later x y f g} hx hf := by
    refine ⟨hx.1.bind fun a => (hf a).1, fun imports s hholds huntouched => ?_⟩
    have hfirst := hx.2 imports s hholds huntouched
    have hupheld := hx.1 imports s hholds
    rcases hrun : exec x imports s with ⟨r, imports', s'⟩
    rw [hrun] at hfirst hupheld
    cases r with
    | error e =>
      rw [exec_bind_error hrun]
      exact ⟨hfirst.history, fun a ha => by cases ha⟩
    | ok a =>
      rw [exec_bind_ok hrun]
      have hsecond := (hf a).2 imports' s' hupheld.holds (hfirst.untouched a rfl)
      obtain ⟨done, hdone⟩ := hfirst.history
      obtain ⟨later, hlater⟩ := hsecond.history
      exact ⟨⟨done ++ later, hdone.trans hlater⟩, hsecond.untouched⟩
  fillMismatch _ _ _ _ := ⟨(upholds σ base chain).fillMismatch [] _ _ _, fun _ s _ h => .refl s h⟩
  spreadMismatch _ _ _ := ⟨(upholds σ base chain).spreadMismatch [] _ _, fun _ s _ h => .refl s h⟩

section

variable {scope : Scope} {demand : Nat → Scoped (StateM σ) τ Unit}

theorem accounts_resolveIn (hdemand : ∀ i, Accounts convert base frame chain (demand i))
    (ident : String) : Accounts convert base frame chain (resolveIn scope demand ident) := by
  refine ⟨upholds_resolveIn (fun i => (hdemand i).1) ident, fun imports s hholds h => ?_⟩
  have hresolved := resolved scope demand ident imports s
  generalize exec (resolveIn scope demand ident) imports s = left at hresolved ⊢
  cases hresolved with
  | param | unknown => exact .refl s h
  | refused index _ _ hrun =>
    have haccounted := (hdemand index).2 imports s hholds h
    rw [hrun] at haccounted
    exact ⟨haccounted.history, fun a ha => by cases ha⟩
  | answered index _ _ hrun =>
    have haccounted := (hdemand index).2 imports s hholds h
    rw [hrun] at haccounted
    exact ⟨haccounted.history, fun _ _ => haccounted.untouched () rfl⟩

theorem accounts_substituteEntries (hdemand : ∀ i, Accounts convert base frame chain (demand i))
    (templates : Entries) :
    Accounts convert base frame chain (substituteEntries (resolveIn scope demand) templates) :=
  (accounts convert base frame chain).substituteEntries templates fun ident _ =>
    accounts_resolveIn hdemand ident

end

section

variable {scope : Scope} {evaluators : List (Evaluator (StateM σ) τ)} {index room : Nat}
  {old site : Import (Module τ)} {s s' : σ}

/-- The last of the moves takes a mark away. -/
theorem History.marked {done : List (Completion τ)} (h : History convert { frame with imports } s
      done { frame with imports := imports' } s') (index : Nat) (state : ImportState) :
    ∃ done, History convert { frame with imports } s done
      { frame with imports := mark imports' index state } s' :=
  ⟨done ++ [], h.trans (.single (.mark index state))⟩

theorem accounted_whileEvaluating {demand : Nat → Scoped (StateM σ) τ Unit}
    {evaluator : Evaluator (StateM σ) τ} {was : Import (Module τ)} (templates : Entries)
    (hdemand : ∀ i, Accounts convert base frame (chain ++ [index]) (demand i))
    (hevaluator : ∀ params s, ∃ done, History convert was.module s done
      ((evaluator params).run s).1.2 ((evaluator params).run s).2)
    (hholds : Holds base chain imports) (h : Untouched frame.imports imports)
    (hb : Became base.imports imports index old site) (hwas : frame.imports[index]? = some was)
    (hs : site.state = .unevaluated) :
    Accounted convert frame imports s (exec (Scoped.whileEvaluating index
      (substituteEntries (resolveIn scope demand) templates >>=
        Scoped.runEvaluator index evaluator)) imports s) := by
  have hfill : Accounts convert base frame (chain ++ [index])
      (substituteEntries (resolveIn scope demand) templates) :=
    accounts_substituteEntries hdemand templates
  have haccounted := hfill.2 _ s (hholds.enter hb) (h.enter hb.new hs)
  have hupheld := hfill.1 _ s (hholds.enter hb)
  have hmark : History convert { frame with imports } s []
      { frame with imports := mark imports index .evaluating } s :=
    .single (.mark index .evaluating)
  have hworked := worked (substituteEntries (resolveIn scope demand) templates) evaluator index
    (mark imports index .evaluating) s
  rw [exec_whileEvaluating]
  generalize exec (_ >>= _) (mark imports index .evaluating) s = left at hworked ⊢
  cases hworked with
  | refused hrun =>
    rw [hrun] at haccounted
    obtain ⟨done, hdone⟩ := haccounted.history
    exact ⟨(hmark.trans hdone).marked index .unevaluated, fun a ha => by cases ha⟩
  | @ran params imports₂ s₂ s₃ result module hrun hev =>
    rw [hrun] at haccounted hupheld
    obtain ⟨done, hdone⟩ := haccounted.history
    obtain ⟨site₂, hb₂⟩ := became_of_declared hupheld.holds.same hb.old
    have hsame : site₂.module = was.module := by
      refine haccounted.untouched params rfl index was site₂ ⟨hwas, hb₂.new⟩ ?_
      rw [hupheld.holds.evaluating_last hb₂.new]
      simp
    obtain ⟨later, hlater⟩ := hevaluator params s₂
    rw [hev, ← hsame] at hlater
    have hstored : History convert { frame with imports } s _
        { frame with imports := store imports₂ index module } s₃ :=
      (hmark.trans hdone).trans (hlater.within hb₂.new)
    refine ⟨hstored.marked index (stateAfter result), ?_⟩
    rintro a rfl
    have hmodule : Changed imports₂ (store imports₂ index module) index _ := .store _ hb₂.new
    exact (haccounted.untouched params rfl).changed (hmodule.trans (.mark .evaluated hmodule.new))
      fun _ _ hs' => absurd rfl hs'

theorem accounts_demandImport (hframe : frame.imports.map declared = base.imports.map declared)
    (hanswering : Answering base evaluators) (hrecounting : Recounting convert frame evaluators)
    (room : Nat) (chain : List Nat) (index : Nat) :
    Accounts convert base frame chain (demandImport scope evaluators room chain index) := by
  induction room generalizing chain index with
  | zero =>
    refine ⟨upholds_demandImport hanswering 0 chain index, fun imports s hholds h => ?_⟩
    refine demandImport_cases (P := Accounted convert frame imports s) hanswering hholds 0 s
      (.refl s h) (fun _ => .refl s h) fun old site evaluator hb he hs => ?_
    rw [demandImport, exec_visitImport_unevaluated s hb.new he hs,
      exec_bind_ok (exec_get imports s), exec_throw]
    exact .refl s h
  | succ room ih =>
    refine ⟨upholds_demandImport hanswering (room + 1) chain index, fun imports s hholds h => ?_⟩
    refine demandImport_cases (P := Accounted convert frame imports s) hanswering hholds (room + 1)
      s (.refl s h) (fun _ => .refl s h) fun old site evaluator hb he hs => ?_
    obtain ⟨was, hwas⟩ := became_of_declared hframe hb.old
    rw [exec_demandImport_unevaluated s hb.new he hs]
    exact accounted_whileEvaluating site.params (fun i => ih (chain ++ [index]) i)
      (hrecounting index was evaluator hwas.new he) hholds h hb hwas.new hs

end

/-- A run on the imports of a module, from the beginning. -/
theorem Accounts.exists_history {x : Scoped (StateM σ) τ α} (h : Accounts convert base frame [] x)
    (hholds : Holds base [] frame.imports) (s : σ) :
    ∃ done, History convert frame s done
      { frame with imports := (exec x frame.imports s).state } (exec x frame.imports s).world := by
  obtain ⟨done, hdone⟩ := (h.2 frame.imports s hholds (.refl frame.imports)).history
  rw [with_imports_eq frame rfl] at hdone
  exact ⟨done, hdone⟩

theorem Consistent.recounting (convert : Converter (StateM σ) τ) {current : Module τ}
    (h : Consistent base current)
    (hmodules : ∀ site ∈ current.imports, ∀ old, Consistent old site.module → ∀ given s, ∃ done,
      History convert site.module s done ((evaluate convert site.module given).run s).1.2
        ((evaluate convert site.module given).run s).2) :
    Recounting convert current (importEvaluators convert current.imports) := by
  intro i was evaluator hwas he params s
  obtain ⟨old, hold, _⟩ := declared_eq_of_getElem? h.holds.same hwas
  rw [importEvaluators_eq_map, List.getElem?_map, hwas] at he
  cases he
  exact hmodules was (List.mem_of_getElem? hwas) old.module
    (h.holds.modules i old was ⟨hold, hwas⟩) params s

/-- An evaluation is a history of its module. -/
theorem evaluate_history (convert : Converter (StateM σ) τ) (current : Module τ) :
    ∀ base, Consistent base current → ∀ given s, ∃ done,
      History convert current s done ((evaluate convert current given).run s).1.2
        ((evaluate convert current given).run s).2 := by
  induction current using Module.induction with
  | step current ih =>
    intro base h given s
    cases he : current.evaluated with
    | true =>
      rw [evaluate_evaluated he]
      exact ⟨[], .start⟩
    | false =>
      have hfill : Accounts convert base current [] (fillOf convert current given) :=
        accounts_substituteEntries (fun i => accounts_demandImport h.holds.same
          (h.answering_imports convert) (h.recounting convert ih) _ [] i) current.resource.raw
      obtain ⟨done, hdone⟩ := hfill.exists_history h.holds s
      rcases hrun : exec (fillOf convert current given) current.imports s with ⟨r, imports', s'⟩
      rw [hrun] at hdone
      cases r with
      | error e =>
        rw [evaluate_error he hrun]
        exact ⟨done, hdone⟩
      | ok raw =>
        rw [evaluate_ok he hrun]
        exact ⟨_, hdone.move (.complete he rfl)⟩

theorem evaluateImport_history (convert : Converter (StateM σ) τ) {current : Module τ}
    (h : Consistent base current) (given : Entries) (name : String) (s : σ) : ∃ done,
      History convert current s done ((evaluateImport convert current given name).run s).1.2
        ((evaluateImport convert current given name).run s).2 := by
  cases hi : current.imports.findIdx? (·.name = name) with
  | none =>
    rw [run_evaluateImport_unknown hi]
    exact ⟨[], .start⟩
  | some index =>
    rw [run_evaluateImport hi]
    have hrecounting := h.recounting convert fun site _ old hold =>
      evaluate_history convert site.module old hold
    have hdemand : Accounts convert base current [] (demandFirst (current.scopeWith given)
        (importEvaluators convert current.imports) index) :=
      accounts_demandImport h.holds.same (h.answering_imports convert) hrecounting _ [] index
    exact hdemand.exists_history h.holds s

theorem Call.run_history (convert : Converter (StateM σ) τ) (call : Call) {current : Module τ}
    (h : Consistent base current) (s : σ) : ∃ done,
      History convert current s done ((call.run convert current).run s).1.2
        ((call.run convert current).run s).2 := by
  refine call.run_induction (P := fun _ current _ s left =>
    ∃ done, History convert current s done left.1.2 left.2) convert ?_ ?_ ?_ ?_ h s
  · exact fun base current s h _ => evaluate_history convert current base h call.given s
  · exact fun base current name s h _ => evaluateImport_history convert h call.given name s
  · exact fun base current index place s _ _ => ⟨[], .start⟩
  · rintro base current index place old site s left _ hb ⟨done, hdone⟩
    exact ⟨_, hdone.within hb.new⟩

theorem runCalls_history (convert : Converter (StateM σ) τ) (calls : List Call)
    {current : Module τ} (h : Consistent base current) (s : σ) : ∃ done,
      History convert current s done ((runCalls convert calls current).run s).1.2
        ((runCalls convert calls current).run s).2 := by
  induction calls generalizing current s with
  | nil => exact ⟨[], .start⟩
  | cons call rest ih =>
    obtain ⟨done, hdone⟩ := call.run_history convert h s
    obtain ⟨later, hlater⟩ := ih (call.run_returned convert h s).consistent
      ((call.run convert current).run s).2
    rw [run_runCalls_cons]
    exact ⟨done ++ later, hdone.trans hlater⟩

end

section

variable {module : Module τ} {place : List Nat}

theorem importsEvaluated_eq_zero {imports : List (Import (Module τ))}
    (h : ∀ site ∈ imports, site.module.evaluatedCount = 0) : importsEvaluated imports = 0 := by
  induction imports with
  | nil => rfl
  | cons site rest ih =>
    obtain ⟨hfirst, hrest⟩ := List.forall_mem_cons.1 h
    rcases site with ⟨name, path, params, state, module⟩
    rw [importsEvaluated, hfirst, ih hrest]

theorem Fresh.evaluatedCount_eq (h : Fresh module) : module.evaluatedCount = 0 := by
  induction h with
  | intro pending _ _ _ _ ih =>
    rw [Module.evaluatedCount_eq, pending, importsEvaluated_eq_zero ih]
    rfl

theorem Fresh.look_eq (h : Fresh module) {evaluated : Bool} {resource : Resource τ}
    (hlook : module.look place = some (evaluated, resource)) : evaluated = false := by
  induction place generalizing module with
  | nil =>
    rw [look_nil] at hlook
    cases hlook
    exact h.pending
  | cons i place ih =>
    rw [look_cons] at hlook
    obtain ⟨site, hsite, hlook⟩ := Option.bind_eq_some_iff.1 hlook
    cases h with
    | intro _ _ _ _ imports => exact ih (imports site (List.mem_of_getElem? hsite)) hlook

theorem look_of_moduleAt? {node : Module τ} (h : module.moduleAt? place = some node) :
    module.look place = some (node.evaluated, node.resource) := by
  rw [look, h, Option.map_some]

theorem moduleAt?_of_look {evaluated : Bool} {resource : Resource τ}
    (h : module.look place = some (evaluated, resource)) :
    ∃ node, module.moduleAt? place = some node ∧ node.evaluated = evaluated ∧
      node.resource = resource := by
  obtain ⟨node, hnode, hlook⟩ := Option.map_eq_some_iff.1 h
  cases hlook
  exact ⟨node, hnode, rfl, rfl⟩

def Frozen (before after : Module τ) : Prop :=
  ∀ place node, before.moduleAt? place = some node → node.evaluated = true →
    ∃ node', after.moduleAt? place = some node' ∧ node'.evaluated = true ∧
      node'.resource = node.resource

/-- The conversions in a record are those of the evaluated modules, one for each of them, and each
of what the resource is in the end. -/
structure ConvertedOnce (done : List (Completion τ)) (record : List Entries) (tree : Module τ) :
    Prop where
  once : (done.map (·.place)).Nodup
  record_eq : record = done.map (·.raw)
  count : record.length = tree.evaluatedCount
  evaluated : ∀ place node, tree.moduleAt? place = some node →
    (node.evaluated = true ↔ place ∈ done.map (·.place))
  final : ∀ completion ∈ done, ∃ node, tree.moduleAt? completion.place = some node ∧
    node.evaluated = true ∧ node.resource = ⟨completion.raw, some completion.typed⟩

theorem Ledger.frozen_of {before after : Module τ} {done : List (Completion τ)}
    (h : Ledger before done after) : Frozen before after := by
  intro place node hnode he
  have hlook := look_of_moduleAt? hnode
  rw [he] at hlook
  exact moduleAt?_of_look (h.frozen hlook)

theorem Ledger.convertedOnce {tree : Module τ} {done : List (Completion τ)} (fresh : Fresh module)
    (h : Ledger module done tree) : ConvertedOnce done (done.map (·.raw)) tree := by
  refine ⟨h.once, rfl, ?_, fun place node hnode => ⟨fun he => ?_, fun hmem => ?_⟩, ?_⟩
  · rw [List.length_map, h.count, fresh.evaluatedCount_eq, Nat.zero_add]
  · by_contra hplace
    have hlook := look_of_moduleAt? hnode
    rw [h.untouched place hplace] at hlook
    rw [fresh.look_eq hlook] at he
    cases he
  · obtain ⟨completion, hdone, rfl⟩ := List.mem_map.1 hmem
    have hlook := look_of_moduleAt? hnode
    rw [h.kept completion hdone, Option.some.injEq, Prod.mk.injEq] at hlook
    exact hlook.1.symm
  · exact fun completion hmem => moduleAt?_of_look (h.kept completion hmem)

end

/-- Conversions happen once for each evaluated module. Calls make histories of the tree they find,
and at any moment of a history that begins with a loaded module the record holds one conversion for
each evaluated module, made in the move that completed it; what is evaluated never changes again. -/
theorem convertedOnce_of_loaded {module : Module τ} (loaded : Loaded module)
    (convert : Converter (StateM σ) τ) (s : σ) :
    (∀ before after : List Call,
      let left := (runCalls (recording convert) before module).run ([], s)
      let right := (runCalls (recording convert) after left.1.2).run left.2
      ∃ done later, History (recording convert) module ([], s) done left.1.2 left.2 ∧
        History (recording convert) left.1.2 left.2 later right.1.2 right.2) ∧
    ∀ done tree record t, History (recording convert) module ([], s) done tree (record, t) →
      ConvertedOnce done record tree ∧
      (∀ later tree' w, History (recording convert) tree (record, t) later tree' w →
        Frozen tree tree') ∧
      ∀ completion tree' record' t',
        Moves (recording convert) tree (record, t) completion tree' (record', t') →
          record' = record ++ completion.toList.map (·.raw) ∧
          Effects (recording convert) tree (record, t) completion tree' (record', t') := by
  refine ⟨fun before after => ?_, fun done tree record t h => ⟨?_, ?_, ?_⟩⟩
  · have hconsistent := loaded.fresh.consistent.runCalls (recording convert) before ([], s)
    obtain ⟨done, hdone⟩ := runCalls_history (recording convert) before loaded.fresh.consistent
      ([], s)
    obtain ⟨later, hlater⟩ := runCalls_history (recording convert) after hconsistent.1
      ((runCalls (recording convert) before module).run ([], s)).2
    exact ⟨done, later, hdone, hlater⟩
  · have hrecord : record = done.map (·.raw) := by simpa using h.record
    rw [hrecord]
    exact h.ledger.convertedOnce loaded.fresh
  · exact fun later tree' w hlater => hlater.ledger.frozen_of
  · exact fun completion tree' record' t' hmove => ⟨hmove.record, hmove.effects⟩

/-- The import is evaluated from outside, then the pod without `y`, then with it. -/
def podCalls : List Call :=
  [⟨[0], [("v", .string "one")], none⟩, ⟨[], [("x", .string "two")], none⟩,
    ⟨[], [("x", .string "two"), ("y", .string "end")], none⟩]

example : ((runCalls (recording asUnit) podCalls podModule).run ([], ())).2.1 =
    [[("svc", .string "one")], [("pod", .list [.string "one", .string "end"])]] := by decide +kernel

theorem convertedOnce_of_loaded_pod :
    Loaded podModule ∧
    (let left := (runCalls (recording asUnit) podCalls podModule).run ([], ())
    ∃ done, History (recording asUnit) podModule ([], ()) done left.1.2 left.2 ∧
      ConvertedOnce done left.2.1 left.1.2) := by
  obtain ⟨hruns, hhistories⟩ := convertedOnce_of_loaded podModule_loaded asUnit ()
  obtain ⟨done, _, hdone, _⟩ := hruns podCalls []
  exact ⟨podModule_loaded, done, hdone, (hhistories done _ _ _ hdone).1⟩

end ManifestModules.Module
