import ManifestModules.Proofs.Module.Calls
import ManifestModules.Proofs.Module.Loaded
import ManifestModules.Proofs.Module.Marks
import ManifestModules.Proofs.Module.Tree
import ManifestModules.Proofs.Template.Correspondence

/-!
# Consistency of module trees

Whatever is called on a loaded tree, at any of its modules and with any parameters, what was loaded
stays as it was: only resources, conversions and the marks of progress change, and these fit
together in every module. No mark of a running evaluation is left behind, also after a failure.
-/

namespace ManifestModules.Module

open Template

variable {σ τ α β : Type}

/-- The module `current` is the loaded module `base` with consistent progress. -/
inductive Consistent : (base current : Module τ) → Prop
  | intro {base current : Module τ} (path : current.path = base.path)
    (params : current.params = base.params) (diagnostics : current.diagnostics = base.diagnostics)
    (typed : current.evaluated = current.resource.typed.isSome)
    (pending : current.evaluated = false → current.resource.raw = base.resource.raw)
    (single : ∃ tag template body, base.resource.raw = [(tag, template)] ∧
      current.resource.raw = [(tag, body)])
    (same : current.imports.map declared = base.imports.map declared)
    (idle : ∀ site ∈ current.imports, site.state ≠ .evaluating)
    (evaluated : ∀ site ∈ current.imports, site.state = .evaluated → site.module.evaluated = true)
    (modules : ∀ i old site, Became base.imports current.imports i old site →
      Consistent old.module site.module) : Consistent base current

/-- A result that does not blame an import for its resource. -/
def Blameless (result : Except Failure α) : Prop :=
  ∀ name path, result ≠ .error (.invalidImportExport name path)

namespace Blameless

theorem ok (a : α) : Blameless (.ok a) := by
  intro name path h
  cases h

theorem failure {e : Failure} (h : Blameless (.error e : Except Failure α)) :
    Blameless (.error e : Except Failure β) := by
  intro name path he
  cases he
  exact h name path rfl

end Blameless

theorem Fresh.consistent {module : Module τ} (h : Fresh module) : Consistent module module := by
  induction h with
  | @intro module pending untyped single idle _ ih =>
    obtain ⟨⟨tag, body⟩, hraw⟩ := List.length_eq_one_iff.1 single
    refine .intro rfl rfl rfl ?_ (fun _ => rfl) ⟨tag, body, body, hraw, hraw⟩ rfl ?_ ?_ ?_
    · rw [pending, untyped]
      rfl
    · intro site hsite
      rw [idle site hsite]
      simp
    · intro site hsite hs
      rw [idle site hsite] at hs
      cases hs
    · intro i old site hb
      cases hb.old.symm.trans hb.new
      exact ih old (List.mem_of_getElem? hb.old)

theorem Consistent.body {base current : Module τ} (h : Consistent base current) :
    ∃ body, current.resource.body? = some body := by
  cases h with
  | intro _ _ _ _ _ single _ _ _ _ =>
    obtain ⟨tag, template, body, _, hraw⟩ := single
    exact ⟨body, by rw [Resource.body?, hraw]; rfl⟩

section

variable (base : Module τ) (chain : List Nat)

/-- What holds for the imports of a module in the course of its evaluation: those on the chain are
marked. -/
structure Holds (imports : List (Import (Module τ))) : Prop extends Marked base chain imports where
  evaluated : ∀ (i : Nat) (site : Import (Module τ)), imports[i]? = some site →
    site.state = .evaluated → site.module.evaluated = true
  modules : ∀ i old site, Became base.imports imports i old site →
    Consistent old.module site.module

structure Upheld (trace : Trace (List (Import (Module τ))) σ α) : Prop where
  holds : Holds base chain trace.state
  blameless : Blameless trace.result

/-- A computation inside a module that restores the marks it finds. -/
def Upholds (x : Scoped (StateM σ) τ α) : Prop :=
  ∀ imports s, Holds base chain imports → Upheld base chain (exec x imports s)

end

variable {base : Module τ} {chain : List Nat} {imports imports' : List (Import (Module τ))}

theorem Consistent.holds {current : Module τ} (h : Consistent base current) :
    Holds base [] current.imports := by
  cases h with
  | intro _ _ _ _ _ _ same idle evaluated modules =>
    refine ⟨⟨same, fun i site hi => ?_⟩,
      fun i site hi => evaluated site (List.mem_of_getElem? hi), modules⟩
    have := idle site (List.mem_of_getElem? hi)
    simp [this]

/-- The imports of a module between evaluations may be what any run has made of them. -/
theorem Consistent.with_imports {current : Module τ} (h : Consistent base current)
    (hholds : Holds base [] imports) : Consistent base { current with imports } := by
  cases h with
  | intro path params diagnostics typed pending single _ _ _ _ =>
    refine .intro path params diagnostics typed pending single hholds.same ?_ ?_ hholds.modules
    · intro site hsite hs
      obtain ⟨i, hi⟩ := List.mem_iff_getElem?.1 hsite
      cases (hholds.evaluating i site hi).1 hs
    · intro site hsite
      obtain ⟨i, hi⟩ := List.mem_iff_getElem?.1 hsite
      exact hholds.evaluated i site hi

namespace Holds

variable {index : Nat} {old site site' : Import (Module τ)}

theorem changed {chain' : List Nat} (h : Holds base chain imports)
    (hchanged : Changed imports imports' index site') (hmarked : Marked base chain' imports')
    (hold : base.imports[index]? = some old)
    (hevaluated : site'.state = .evaluated → site'.module.evaluated = true)
    (hmodule : Consistent old.module site'.module) : Holds base chain' imports' := by
  refine ⟨hmarked, fun i now hnow => ?_, fun i was now hnow => ?_⟩
  · obtain ⟨rfl, rfl⟩ | ⟨_, hi⟩ := hchanged.getElem?_cases hnow
    · exact hevaluated
    · exact h.evaluated i now hi
  · obtain ⟨rfl, rfl⟩ | ⟨_, hi⟩ := hchanged.getElem?_cases hnow.new
    · cases hold.symm.trans hnow.old
      exact hmodule
    · exact h.modules i was now ⟨hnow.old, hi⟩

theorem enter (h : Holds base chain imports) (hb : Became base.imports imports index old site) :
    Holds base (chain ++ [index]) (mark imports index .evaluating) := by
  refine h.changed (.mark _ hb.new) (h.toMarked.enter hb.new) hb.old ?_
    (h.modules index old site hb)
  intro hs
  cases hs

theorem store {module : Module τ} (h : Holds base (chain ++ [index]) imports)
    (hb : Became base.imports imports index old site) (hmodule : Consistent old.module module) :
    Holds base (chain ++ [index]) (store imports index module) := by
  refine h.changed (.store _ hb.new) (h.toMarked.store hb.new) hb.old (fun hevaluated => ?_) hmodule
  have hs : site.state = .evaluated := hevaluated
  cases hs.symm.trans (h.evaluating_last hb.new)

/-- The mark of the innermost import is taken away. -/
theorem leave {state : ImportState} (h : Holds base (chain ++ [index]) imports)
    (hb : Became base.imports imports index old site) (hc : index ∉ chain)
    (hstate : state ≠ .evaluating)
    (hevaluated : state = .evaluated → site.module.evaluated = true) :
    Holds base chain (mark imports index state) :=
  h.changed (.mark _ hb.new) (h.toMarked.leave hb.new hc hstate) hb.old hevaluated
    (h.modules index old site hb)

end Holds

section

theorem Upholds.result {r : Except Failure α} (h : Blameless r) :
    Upholds (σ := σ) base chain (liftM r) := by
  intro imports s hholds
  rw [exec_liftM]
  exact ⟨hholds, h⟩

theorem Upholds.bind {x : Scoped (StateM σ) τ α} {f : α → Scoped (StateM σ) τ β}
    (hx : Upholds base chain x) (hf : ∀ a, Upholds base chain (f a)) :
    Upholds base chain (x >>= f) := by
  intro imports s hholds
  have hfirst := hx imports s hholds
  rcases hrun : exec x imports s with ⟨r, imports', s'⟩
  rw [hrun] at hfirst
  cases r with
  | error e =>
    rw [exec_bind_error hrun]
    exact ⟨hfirst.holds, hfirst.blameless.failure⟩
  | ok a =>
    rw [exec_bind_ok hrun]
    exact hf a imports' s' hfirst.holds

def upholds (σ : Type) (base : Module τ) (chain : List Nat) :
    Property (StateT (List (Import (Module τ))) (StateM σ)) where
  Rel _ x _ := Upholds base chain x
  pure a := Upholds.result (.ok a)
  bind := Upholds.bind
  fillMismatch _ _ _ _ := Upholds.result (r := .error _) fun _ _ h => by cases h
  spreadMismatch _ _ _ := Upholds.result (r := .error _) fun _ _ h => by cases h

theorem indexPath_blameless (ident : String) (value : Value) (segments : List String) :
    Blameless (indexPath ident value segments) := by
  induction segments generalizing value with
  | nil =>
    intro name path h
    cases h
  | cons segment rest ih =>
    rw [indexPath]
    cases step value segment with
    | ok next => exact ih next
    | error fault =>
      intro name path h
      cases h

variable {scope : Scope} {demand : Nat → Scoped (StateM σ) τ Unit}

/-- A demanded import is there, and its resource has a body. -/
theorem upholds_resolveIn (hdemand : ∀ index, Upholds base chain (demand index)) (ident : String) :
    Upholds base chain (resolveIn scope demand ident) := by
  intro imports s h
  have hresolved := resolved scope demand ident imports s
  generalize exec (resolveIn scope demand ident) imports s = left at hresolved ⊢
  cases hresolved with
  | param => exact ⟨h, indexPath_blameless _ _ _⟩
  | unknown => exact ⟨h, fun _ _ h => by cases h⟩
  | refused index _ _ hrun =>
    have hupheld := hdemand index imports s h
    rw [hrun] at hupheld
    exact ⟨hupheld.holds, hupheld.blameless.failure⟩
  | answered index _ found hrun =>
    have hupheld := hdemand index imports s h
    rw [hrun] at hupheld
    refine ⟨hupheld.holds, ?_⟩
    obtain ⟨hlt, _⟩ := List.findIdx?_eq_some_iff_getElem.1 found
    obtain ⟨old, hold, _⟩ := declared_eq_of_getElem? h.same (List.getElem?_eq_getElem hlt)
    obtain ⟨site, hb⟩ := became_of_declared hupheld.holds.same hold
    obtain ⟨body, hbody⟩ := (hupheld.holds.modules index old site hb).body
    simp only [bodyAt, hb.new, Option.bind_some, hbody]
    exact indexPath_blameless _ _ _

theorem upholds_substituteEntries (hdemand : ∀ index, Upholds base chain (demand index))
    (templates : Entries) :
    Upholds base chain (substituteEntries (resolveIn scope demand) templates) :=
  (upholds σ base chain).substituteEntries templates fun ident _ => upholds_resolveIn hdemand ident

end

section

variable (base) in
structure Answered (left : Except Failure Unit × Module τ) : Prop where
  consistent : Consistent base left.2
  blameless : Blameless left.1
  evaluated : left.1 = .ok () → left.2.evaluated = true

variable {scope : Scope} {evaluators : List (Evaluator (StateM σ) τ)} {index : Nat}

/-- The work on an import, done while it is marked. -/
theorem upheld_work (scope : Scope) {demand : Nat → Scoped (StateM σ) τ Unit}
    {evaluator : Evaluator (StateM σ) τ} {old site : Import (Module τ)} (templates : Entries)
    (s : σ) (hdemand : ∀ i, Upholds base (chain ++ [index]) (demand i))
    (hevaluator : ∀ params s, Answered old.module ((evaluator params).run s).1)
    (h : Holds base chain imports) (hb : Became base.imports imports index old site) :
    let left := exec (substituteEntries (resolveIn scope demand) templates >>=
      Scoped.runEvaluator index evaluator) (mark imports index .evaluating) s
    Upheld base (chain ++ [index]) left ∧ (left.result = .ok () →
      ∀ site, left.state[index]? = some site → site.module.evaluated = true) := by
  have hfill : Upheld base (chain ++ [index])
      (exec (substituteEntries (resolveIn scope demand) templates)
        (mark imports index .evaluating) s) :=
    upholds_substituteEntries hdemand templates _ s (h.enter hb)
  have hworked := worked (substituteEntries (resolveIn scope demand) templates) evaluator index
    (mark imports index .evaluating) s
  generalize exec (_ >>= _) (mark imports index .evaluating) s = left at hworked ⊢
  cases hworked with
  | refused hrun =>
    rw [hrun] at hfill
    exact ⟨⟨hfill.holds, hfill.blameless.failure⟩, fun hok => by cases hok⟩
  | @ran params _ s' _ result module hrun hev =>
    rw [hrun] at hfill
    obtain ⟨site', hb'⟩ := became_of_declared hfill.holds.same hb.old
    have hanswered := hevaluator params s'
    rw [hev] at hanswered
    refine ⟨⟨hfill.holds.store hb' hanswered.consistent, hanswered.blameless⟩, ?_⟩
    intro hok now hnow
    cases hnow.symm.trans (Changed.store _ hb'.new).new
    exact hanswered.evaluated hok

/-- Also if the work on an import fails, its mark is taken away. -/
theorem upheld_whileEvaluating {demand : Nat → Scoped (StateM σ) τ Unit}
    {evaluator : Evaluator (StateM σ) τ} {old site : Import (Module τ)} (templates : Entries)
    (s : σ) (hdemand : ∀ i, Upholds base (chain ++ [index]) (demand i))
    (hevaluator : ∀ params s, Answered old.module ((evaluator params).run s).1)
    (h : Holds base chain imports) (hb : Became base.imports imports index old site)
    (hc : index ∉ chain) :
    Upheld base chain (exec (Scoped.whileEvaluating index
      (substituteEntries (resolveIn scope demand) templates >>=
        Scoped.runEvaluator index evaluator)) imports s) := by
  have hwork := upheld_work scope templates s hdemand hevaluator h hb
  rw [exec_whileEvaluating]
  generalize exec (_ >>= _) (mark imports index .evaluating) s = left at hwork ⊢
  obtain ⟨hupheld, hevaluated⟩ := hwork
  obtain ⟨site', hb'⟩ := became_of_declared hupheld.holds.same hb.old
  rcases left with ⟨_ | _, imports', s'⟩
  · exact ⟨hupheld.holds.leave hb' hc (by simp [stateAfter]) (by simp [stateAfter]),
      hupheld.blameless⟩
  · exact ⟨hupheld.holds.leave hb' hc (by simp [stateAfter]) fun _ => hevaluated rfl site' hb'.new,
      .ok ()⟩

variable (base evaluators) in
def Answering : Prop :=
  ∀ (i : Nat) (old : Import (Module τ)), base.imports[i]? = some old →
    ∃ evaluator, evaluators[i]? = some evaluator ∧
      ∀ params s, Answered old.module ((evaluator params).run s).1

/-- Only the first demand of an import takes work, and to meet a marked import closes a cycle. -/
theorem demandImport_cases {P : Trace (List (Import (Module τ))) σ Unit → Prop}
    (hevaluators : Answering base evaluators) (h : Holds base chain imports) (room : Nat) (s : σ)
    (hdone : P ⟨.ok (), imports, s⟩)
    (hcycle : index ∈ chain → P ⟨.error (demandCycle scope imports chain index), imports, s⟩)
    (hfirst : ∀ old site evaluator, Became base.imports imports index old site →
      evaluators[index]? = some evaluator → site.state = .unevaluated →
      P (exec (demandImport scope evaluators room chain index) imports s)) :
    P (exec (demandImport scope evaluators room chain index) imports s) := by
  cases hnew : imports[index]? with
  | none =>
    rw [exec_demandImport_absent s hnew]
    exact hdone
  | some site =>
    obtain ⟨old, hold, _⟩ := declared_eq_of_getElem? h.same hnew
    obtain ⟨evaluator, hevaluator, _⟩ := hevaluators index old hold
    cases hs : site.state with
    | evaluated =>
      rw [exec_demandImport_evaluated s hnew hs]
      exact hdone
    | evaluating =>
      rw [exec_demandImport_evaluating s hnew hevaluator hs]
      exact hcycle ((h.evaluating index site hnew).1 hs)
    | unevaluated => exact hfirst old site evaluator ⟨hold, hnew⟩ hevaluator hs

theorem upholds_demandImport (hevaluators : Answering base evaluators) (room : Nat)
    (chain : List Nat) (index : Nat) :
    Upholds base chain (demandImport scope evaluators room chain index) := by
  induction room generalizing chain index with
  | zero =>
    intro imports s h
    refine demandImport_cases hevaluators h 0 s ⟨h, .ok ()⟩
      (fun _ => ⟨h, fun _ _ he => by cases he⟩) fun old site evaluator hb he hs => ?_
    rw [demandImport, exec_visitImport_unevaluated s hb.new he hs,
      exec_bind_ok (exec_get imports s), exec_throw]
    exact ⟨h, fun _ _ he => by cases he⟩
  | succ room ih =>
    intro imports s h
    refine demandImport_cases hevaluators h (room + 1) s ⟨h, .ok ()⟩
      (fun _ => ⟨h, fun _ _ he => by cases he⟩) fun old site evaluator hb he hs => ?_
    have hc := h.not_mem hb.new hs
    obtain ⟨supplied, hsupplied, hanswered⟩ := hevaluators index old hb.old
    cases he.symm.trans hsupplied
    rw [exec_demandImport_unevaluated s hb.new he hs]
    exact upheld_whileEvaluating site.params s (fun i => ih (chain ++ [index]) i) hanswered h hb hc

end

section

variable {convert : Converter (StateM σ) τ}

/-- The filled resource has the keys of its template. -/
theorem substituteEntries_keys {resolve : Resolver (StateT (List (Import (Module τ))) (StateM σ))}
    (templates : Entries) :
    Yields (substituteEntries resolve templates) fun filled =>
      filled.map Prod.fst = templates.map Prod.fst := by
  induction templates with
  | nil => exact Yields.pure rfl
  | cons entry rest ih =>
    obtain ⟨key, value⟩ := entry
    rw [substituteEntries]
    refine (Yields.trivial _).bind fun filled _ => ih.bind fun more hmore => Yields.pure ?_
    rw [List.map_cons, List.map_cons, hmore]

theorem eq_singleton_of_keys {entries : Entries} {tag : String}
    (h : entries.map Prod.fst = [tag]) : ∃ body, entries = [(tag, body)] := by
  cases entries with
  | nil => cases h
  | cons entry rest =>
    simp only [List.map_cons, List.cons.injEq, List.map_eq_nil_iff] at h
    obtain ⟨rfl, rfl⟩ := h
    exact ⟨entry.2, rfl⟩

theorem Consistent.answering (convert : Converter (StateM σ) τ) {current : Module τ}
    (h : Consistent base current)
    (hmodules : ∀ site ∈ current.imports, ∀ old, Consistent old site.module →
      ∀ params s, Answered old ((evaluate convert site.module params).run s).1) :
    Answering base (importEvaluators convert current.imports) := by
  intro i old hold
  obtain ⟨site, hb⟩ := became_of_declared h.holds.same hold
  refine ⟨evaluate convert site.module, ?_, ?_⟩
  · rw [importEvaluators_eq_map, List.getElem?_map, hb.new, Option.map_some]
  · exact hmodules site (List.mem_of_getElem? hb.new) old.module (h.holds.modules i old site hb)

/-- An evaluation keeps a module consistent, whatever its outcome. -/
theorem evaluate_answered (convert : Converter (StateM σ) τ) (current : Module τ) :
    ∀ base, Consistent base current → ∀ given s,
      Answered base ((evaluate convert current given).run s).1 := by
  induction current using Module.induction with
  | step current ih =>
    intro base h given s
    cases he : current.evaluated with
    | true =>
      rw [evaluate_evaluated he]
      exact ⟨h, .ok (), fun _ => he⟩
    | false =>
      have hanswering := h.answering convert ih
      have hfill : Upheld base [] (exec (fillOf convert current given) current.imports s) :=
        upholds_substituteEntries (upholds_demandImport hanswering _ []) current.resource.raw
          current.imports s h.holds
      have hkeys : Yields (fillOf convert current given) fun raw =>
          raw.map Prod.fst = current.resource.raw.map Prod.fst := substituteEntries_keys _
      rcases hrun : exec (fillOf convert current given) current.imports s with ⟨r, imports', s'⟩
      rw [hrun] at hfill
      cases r with
      | error e =>
        rw [evaluate_error he hrun]
        exact ⟨h.with_imports hfill.holds, hfill.blameless.failure, fun he' => by cases he'⟩
      | ok raw =>
        rw [evaluate_ok he hrun]
        refine ⟨?_, .ok (), fun _ => rfl⟩
        have hraw := hkeys current.imports s raw (by rw [hrun])
        cases h.with_imports hfill.holds with
        | intro path params diagnostics typed pending single same idle evaluated modules =>
          obtain ⟨tag, template, body, hbase, hcurrent⟩ := single
          refine .intro path params diagnostics rfl (fun he' => by cases he') ?_ same idle evaluated
            modules
          obtain ⟨filled, rfl⟩ := eq_singleton_of_keys (hraw.trans (by rw [hcurrent]; rfl))
          exact ⟨tag, template, filled, hbase, rfl⟩

/-- The evaluators of a consistent module answer for its imports. -/
theorem Consistent.answering_imports (convert : Converter (StateM σ) τ) {current : Module τ}
    (h : Consistent base current) : Answering base (importEvaluators convert current.imports) :=
  h.answering convert fun site _ old hold => evaluate_answered convert site.module old hold

variable (base) in
structure Returned (current : Module τ) (left : Except Failure Unit × Module τ) : Prop where
  consistent : Consistent base left.2
  blameless : Blameless left.1
  evaluated : current.evaluated = true → left.2.evaluated = true

variable {current : Module τ}

theorem evaluate_returned (h : Consistent base current) (given : Entries) (s : σ) :
    Returned base current ((evaluate convert current given).run s).1 := by
  have hanswered := evaluate_answered convert current base h given s
  refine ⟨hanswered.consistent, hanswered.blameless, fun he => ?_⟩
  rw [evaluate_evaluated he]
  exact he

theorem evaluateImport_returned (h : Consistent base current) (given : Entries) (name : String)
    (s : σ) : Returned base current ((evaluateImport convert current given name).run s).1 := by
  cases hi : current.imports.findIdx? (·.name = name) with
  | none =>
    rw [run_evaluateImport_unknown hi]
    exact ⟨h, (fun _ _ he => by cases he), fun he => he⟩
  | some index =>
    rw [run_evaluateImport hi]
    have hupheld : Upheld base [] (exec (demandFirst (current.scopeWith given)
        (importEvaluators convert current.imports) index) current.imports s) :=
      upholds_demandImport (h.answering_imports convert) _ [] index current.imports s h.holds
    exact ⟨h.with_imports hupheld.holds, hupheld.blameless, fun he => he⟩

/-- To show something of a call, it is enough to show it of the evaluations of modules and imports,
and that it is handed on from an import to its importer. -/
theorem Call.run_induction
    {P : Module τ → Module τ → List Nat → σ → (Except Failure Unit × Module τ) × σ → Prop}
    (convert : Converter (StateM σ) τ) (call : Call)
    (hmodule : ∀ base current s, Consistent base current → call.name = none →
      P base current [] s ((evaluate convert current call.given).run s))
    (himport : ∀ base current name s, Consistent base current → call.name = some name →
      P base current [] s ((evaluateImport convert current call.given name).run s))
    (habsent : ∀ base current index place s, Consistent base current →
      current.imports[index]? = none → P base current (index :: place) s ((.ok (), current), s))
    (hwithin : ∀ base current index place old site s left, Consistent base current →
      Became base.imports current.imports index old site → P old.module site.module place s left →
        P base current (index :: place) s
          ((left.1.1, { current with imports := store current.imports index left.1.2 }), left.2))
    (h : Consistent base current) (s : σ) :
    P base current call.place s ((call.run convert current).run s) := by
  rw [Call.run]
  induction call.place generalizing base current with
  | nil =>
    rw [descend, Call.work]
    cases hname : call.name with
    | none => exact hmodule base current s h hname
    | some name => exact himport base current name s h hname
  | cons index place ih =>
    cases hnew : current.imports[index]? with
    | none =>
      rw [run_descend_absent _ _ hnew]
      exact habsent base current index place s h hnew
    | some site =>
      obtain ⟨old, hold, _⟩ := declared_eq_of_getElem? h.holds.same hnew
      rw [run_descend _ _ hnew]
      exact hwithin base current index place old site s _ h ⟨hold, hnew⟩
        (ih (h.holds.modules index old site ⟨hold, hnew⟩))

theorem Call.run_returned (convert : Converter (StateM σ) τ) (call : Call)
    (h : Consistent base current) (s : σ) :
    Returned base current ((call.run convert current).run s).1 := by
  refine call.run_induction (P := fun base current _ _ left => Returned base current left.1) convert
    ?_ ?_ ?_ ?_ h s
  · exact fun base current s h _ => evaluate_returned h call.given s
  · exact fun base current name s h _ => evaluateImport_returned h call.given name s
  · exact fun base current index place s h _ => ⟨h, .ok (), fun he => he⟩
  · intro base current index place old site s left h hb hreturned
    have hstored : Holds base [] (store current.imports index left.1.2) :=
      h.holds.changed (.store _ hb.new) (h.holds.toMarked.store hb.new) hb.old
        (fun hs => hreturned.evaluated (h.holds.evaluated index site hb.new hs))
        hreturned.consistent
    exact ⟨h.with_imports hstored, hreturned.blameless, fun he => he⟩

theorem Consistent.runCalls (convert : Converter (StateM σ) τ) (calls : List Call)
    (h : Consistent base current) (s : σ) :
    Consistent base ((runCalls convert calls current).run s).1.2 ∧
      ∀ result ∈ ((runCalls convert calls current).run s).1.1, Blameless result := by
  induction calls generalizing current s with
  | nil =>
    rw [run_runCalls_nil]
    exact ⟨h, by simp⟩
  | cons call rest ih =>
    rw [run_runCalls_cons]
    have hreturned := call.run_returned convert h s
    obtain ⟨hconsistent, hblameless⟩ := ih hreturned.consistent _
    refine ⟨hconsistent, fun result hmem => ?_⟩
    rcases List.mem_cons.1 hmem with rfl | hmem
    · exact hreturned.blameless
    · exact hblameless result hmem

end

/-- After any calls on the modules of a loaded tree, with any parameters and successful or not, the
tree is consistent; and no call blames an import for its resource. -/
theorem runCalls_consistent {module : Module τ} (loaded : Loaded module)
    (convert : Converter (StateM σ) τ) (calls : List Call) (s : σ) :
    let left := ((runCalls convert calls module).run s).1
    Consistent module left.2 ∧ ∀ result ∈ left.1, Blameless result :=
  loaded.fresh.consistent.runCalls convert calls s

theorem runCalls_pod_consistent :
    Loaded podModule ∧
    (let calls := [⟨[0], [], none⟩, ⟨[], [("x", .string "one")], none⟩, ⟨[], [], some "a"⟩]
    let left := ((runCalls asUnit calls podModule).run ()).1
    Consistent podModule left.2 ∧ ∀ result ∈ left.1, Blameless result) :=
  ⟨podModule_loaded, runCalls_consistent podModule_loaded asUnit _ ()⟩

end ManifestModules.Module
