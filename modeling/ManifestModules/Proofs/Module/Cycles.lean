import ManifestModules.Proofs.Module.OnDemand
import ManifestModules.Proofs.Module.Watch
import Mathlib.Data.List.Chain
import Mathlib.Logic.Relation

/-!
# Cycles of imports

A cycle that an evaluation reports is one: imports of a single module, each named by the parameter
templates of the one before. The chain of imports under evaluation is a path of such uses, hence a
demand that meets it again closes a cycle. And what is demanded may not reach itself, or the
evaluation fails.
-/

namespace ManifestModules.Module

open Template Relation

variable {σ τ α β : Type}

/-- A module in the tree of another one, with parameters of the names that it can receive there. -/
inductive Within : Module τ → Entries → Module τ → Entries → Prop
  | here {module : Module τ} {given : Entries} : Within module given module given
  | deeper {module : Module τ} {given : Entries} {site : Import (Module τ)}
    {received : Entries} {inner : Module τ} {params : Entries} (mem : site ∈ module.imports)
    (keys : received.map Prod.fst = site.params.map Prod.fst)
    (within : Within site.module received inner params) : Within module given inner params

/-- Distinct imports, each using the next one and the last one the first. -/
structure Cycle (module : Module τ) (given : Entries) (first : Nat) (rest : List Nat) :
    Prop where
  distinct : (first :: rest).Nodup
  uses : (first :: rest ++ [first]).IsChain (Uses module given)

def nameOf (module : Module τ) (i : Nat) : String :=
  (module.imports[i]?.map (·.name)).getD ""

def cycleText (module : Module τ) (first : Nat) (rest : List Nat) : String :=
  s!"{module.path}: {chainText ((first :: rest ++ [first]).map module.nameOf)}"

/-- A text that shows a cycle in a module or below it. -/
def FoundCycle (module : Module τ) (given : Entries) (text : String) : Prop :=
  ∃ inner params first rest, Within module given inner params ∧ Cycle inner params first rest ∧
    text = cycleText inner first rest

/-- A result that reports no other cycles than there are. -/
def Told (module : Module τ) (given : Entries) (result : Except Failure α) : Prop :=
  ∀ text, result = .error (.cyclicImport text) → FoundCycle module given text

section

variable {base : Module τ} {given : Entries}

theorem FoundCycle.deeper {site : Import (Module τ)} {received : Entries} {text : String}
    (hmem : site ∈ base.imports) (hkeys : received.map Prod.fst = site.params.map Prod.fst)
    (h : FoundCycle site.module received text) : FoundCycle base given text := by
  obtain ⟨inner, params, first, rest, hwithin, hcycle, htext⟩ := h
  exact ⟨inner, params, first, rest, .deeper hmem hkeys hwithin, hcycle, htext⟩

namespace Told

theorem ok (a : α) : Told base given (.ok a) := by
  intro text h
  cases h

theorem other {e : Failure} (h : ∀ text, e ≠ .cyclicImport text) :
    Told base given (.error e : Except Failure α) := by
  intro text he
  cases he
  exact absurd rfl (h text)

theorem failure {e : Failure} (h : Told base given (.error e : Except Failure α)) :
    Told base given (.error e : Except Failure β) := by
  intro text he
  cases he
  exact h text rfl

theorem indexPath (ident : String) (value : Value) (segments : List String) :
    Told base given (indexPath ident value segments) := by
  induction segments generalizing value with
  | nil => exact ok value
  | cons segment rest ih =>
    rw [Template.indexPath]
    cases step value segment with
    | ok next => exact ih next
    | error fault => exact other fun _ h => by cases h

end Told

/-- The part of a chain of uses that comes back to its beginning is a cycle. -/
theorem told_demandCycle {chain : List Nat} {index : Nat} (hnodup : chain.Nodup)
    (hchain : (chain ++ [index]).IsChain (Uses base given)) (hc : index ∈ chain) :
    Told (α := α) base given
      (.error (demandCycle (base.scopeWith given) base.imports chain index)) := by
  obtain ⟨before, rest, rfl⟩ := List.append_of_mem hc
  have hbefore : ∀ i ∈ before, i ≠ index := by
    intro i hi
    exact (List.nodup_append.1 hnodup).2.2 i hi index (List.mem_cons_self)
  have hstart : (before ++ index :: rest).dropWhile (· ≠ index) = index :: rest := by
    rw [List.dropWhile_append_of_pos fun i hi => decide_eq_true (hbefore i hi)]
    exact List.dropWhile_cons_of_neg (by simp)
  have hcycle : Cycle base given index rest := by
    refine ⟨(List.nodup_append.1 hnodup).2.1, ?_⟩
    rw [List.append_assoc] at hchain
    exact hchain.right_of_append
  intro text htext
  simp only [demandCycle, if_pos hc, hstart] at htext
  cases htext
  exact ⟨base, given, index, rest, .here, hcycle, rfl⟩

end

section

variable (base : Module τ) (given : Entries) (chain : List Nat)

def Tells (x : Scoped (StateM σ) τ α) : Prop :=
  ∀ imports s, Holds base chain imports → Told base given (exec x imports s).result

def tells (σ : Type) :
    Property (StateT (List (Import (Module τ))) (StateM σ)) where
  Rel _ x _ := Upholds base chain x ∧ Tells base given chain x
  pure a := ⟨(upholds σ base chain).pure a, fun _ _ _ => .ok a⟩
  bind {α β asked later x y f g} hx hf := by
    refine ⟨hx.1.bind fun a => (hf a).1, fun imports s h => ?_⟩
    have htold := hx.2 imports s h
    have hupheld := hx.1 imports s h
    rcases hrun : exec x imports s with ⟨r, imports', s'⟩
    rw [hrun] at htold hupheld
    cases r with
    | error e =>
      rw [exec_bind_error hrun]
      exact htold.failure
    | ok a =>
      rw [exec_bind_ok hrun]
      exact (hf a).2 imports' s' hupheld.holds
  fillMismatch _ _ _ _ :=
    ⟨(upholds σ base chain).fillMismatch [] _ _ _, fun _ _ _ => .other fun _ h => by cases h⟩
  spreadMismatch _ _ _ :=
    ⟨(upholds σ base chain).spreadMismatch [] _ _, fun _ _ _ => .other fun _ h => by cases h⟩

def Telling (evaluators : List (Evaluator (StateM σ) τ)) : Prop :=
  ∀ (i : Nat) (old : Import (Module τ)) (evaluator : Evaluator (StateM σ) τ),
    base.imports[i]? = some old → evaluators[i]? = some evaluator → ∀ received s,
      received.map Prod.fst = old.params.map Prod.fst →
        Told old.module received ((evaluator received).run s).1.1

end

section

variable {base : Module τ} {given : Entries} {chain : List Nat}
  {demand : Nat → Scoped (StateM σ) τ Unit} {evaluators : List (Evaluator (StateM σ) τ)}

theorem tells_resolveIn {ident : String}
    (hdemand : ∀ i, Names base given (headOf ident) i → Tells base given chain (demand i)) :
    Tells base given chain (resolveIn (base.scopeWith given) demand ident) := by
  intro imports s h
  have hresolved := resolved (base.scopeWith given) demand ident imports s
  generalize exec (resolveIn _ demand ident) imports s = left at hresolved ⊢
  cases hresolved with
  | param => exact .indexPath _ _ _
  | unknown => exact .other fun _ h => by cases h
  | refused index noParam found hrun =>
    rw [findIdx?_of_declared h.same] at found
    have htold := hdemand index (names_of_findIdx? noParam found) imports s h
    rw [hrun] at htold
    exact htold.failure
  | @answered index imports' s' =>
    cases bodyAt imports' index with
    | none => exact .other fun _ h => by cases h
    | some body => exact .indexPath _ _ _

theorem tells_substituteEntries (templates : Entries)
    (hupholds : ∀ i, Upholds base chain (demand i))
    (hdemand : ∀ head ∈ heads templates, ∀ i, Names base given head i →
      Tells base given chain (demand i)) :
    Tells base given chain
      (substituteEntries (resolveIn (base.scopeWith given) demand) templates) :=
  ((tells base given chain σ).substituteEntries templates fun ident hident =>
    ⟨upholds_resolveIn hupholds ident,
      tells_resolveIn (hdemand (headOf ident) (List.mem_map_of_mem hident))⟩).2

section

variable {imports : List (Import (Module τ))} {index room : Nat}

/-- Only the first demand of an import takes work; a demand that meets the chain closes a cycle. -/
theorem told_of_first (hanswering : Answering base evaluators) (hnodup : chain.Nodup)
    (hchain : (chain ++ [index]).IsChain (Uses base given)) (h : Holds base chain imports) (s : σ)
    (hfirst : ∀ old site evaluator, Became base.imports imports index old site →
      evaluators[index]? = some evaluator → site.state = .unevaluated →
      Told base given (exec (demandImport (base.scopeWith given) evaluators room chain index)
        imports s).result) :
    Told base given (exec (demandImport (base.scopeWith given) evaluators room chain index)
      imports s).result := by
  refine demandImport_cases (P := fun trace => Told base given trace.result) hanswering h room s
    (.ok ()) (fun hc => ?_) hfirst
  rw [demandCycle_of_declared h.same]
  exact told_demandCycle hnodup hchain hc

theorem told_whileEvaluating {evaluator : Evaluator (StateM σ) τ} {old site : Import (Module τ)}
    (s : σ) (hfill : Tells base given (chain ++ [index])
      (substituteEntries (resolveIn (base.scopeWith given) demand) site.params))
    (hevaluator : ∀ received s, received.map Prod.fst = old.params.map Prod.fst →
      Told old.module received ((evaluator received).run s).1.1)
    (h : Holds base chain imports) (hb : Became base.imports imports index old site) :
    Told base given (exec (Scoped.whileEvaluating index
      (substituteEntries (resolveIn (base.scopeWith given) demand) site.params >>=
        Scoped.runEvaluator index evaluator)) imports s).result := by
  have htold := hfill _ s (h.enter hb)
  have hkeys : Yields (substituteEntries (resolveIn (base.scopeWith given) demand) site.params)
      fun filled => filled.map Prod.fst = site.params.map Prod.fst := substituteEntries_keys _
  have hworked := worked (substituteEntries (resolveIn (base.scopeWith given) demand) site.params)
    evaluator index (mark imports index .evaluating) s
  rw [exec_whileEvaluating]
  generalize exec (_ >>= _) (mark imports index .evaluating) s = left at hworked ⊢
  cases hworked with
  | refused hrun =>
    rw [hrun] at htold
    exact htold.failure
  | @ran received _ s' _ result module hrun hev =>
    have hreceived : received.map Prod.fst = old.params.map Prod.fst := by
      rw [hkeys _ s received (by rw [hrun]), h.params_eq hb]
    have htold := hevaluator received s' hreceived
    rw [hev] at htold
    cases result with
    | ok a => exact .ok ()
    | error e =>
      intro text he
      exact (htold text he).deeper (List.mem_of_getElem? hb.old) hreceived

/-- The chain of imports under evaluation is a path of uses. -/
theorem tells_demandImport (hanswering : Answering base evaluators)
    (htelling : Telling base evaluators) (hproper : Proper base chain)
    (hchain : (chain ++ [index]).IsChain (Uses base given))
    (hroom : Module.room base.imports.length chain ≤ room) :
    Tells base given chain
      (demandImport (base.scopeWith given) evaluators room chain index) := by
  induction room generalizing chain index with
  | zero =>
    intro imports s h
    refine told_of_first hanswering hproper.nodup hchain h s fun old site evaluator hb he hs => ?_
    have hlt := room_append_lt (List.getElem?_eq_some_iff.1 hb.old).1 (h.not_mem hb.new hs)
    omega
  | succ room ih =>
    intro imports s h
    refine told_of_first hanswering hproper.nodup hchain h s fun old site evaluator hb he hs => ?_
    have hbound := (List.getElem?_eq_some_iff.1 hb.old).1
    have hc := h.not_mem hb.new hs
    have hlt := room_append_lt hbound hc
    rw [exec_demandImport_unevaluated s hb.new he hs]
    refine told_whileEvaluating s ?_ (fun received s => htelling index old evaluator hb.old he
      received s) h hb
    refine tells_substituteEntries site.params (fun i => upholds_demandImport hanswering _ _ i)
      fun head hhead i hi => ih (hproper.append hbound hc) ?_ (by omega)
    have huses : Uses base given index i := by
      rw [h.params_eq hb] at hhead
      exact ⟨old, hb.old, head, hhead, hi⟩
    exact hchain.append_overlap (List.isChain_pair.2 huses) (by simp)

end

theorem Consistent.scopeWith_eq {current : Module τ} (h : Consistent base current) :
    current.scopeWith given = base.scopeWith given := by
  cases h with
  | intro path params _ _ _ _ _ _ _ _ =>
    rw [scopeWith, scopeWith, effectiveParams, effectiveParams, defaults, defaults, path, params]

theorem Consistent.told_demandFirst (convert : Converter (StateM σ) τ) {current : Module τ}
    (h : Consistent base current)
    (hmodules : ∀ site ∈ current.imports, ∀ old, Consistent old site.module → ∀ given s,
      Told old given ((evaluate convert site.module given).run s).1.1) (index : Nat) :
    Tells base given [] (demandFirst (base.scopeWith given)
      (importEvaluators convert current.imports) index) := by
  refine tells_demandImport (h.answering_imports convert) ?_ .nil (List.isChain_singleton _)
    (h.room_le convert)
  intro i old evaluator hold he received s _
  obtain ⟨site, hb⟩ := became_of_declared h.holds.same hold
  rw [importEvaluators_eq_map, List.getElem?_map, hb.new] at he
  cases he
  exact hmodules site (List.mem_of_getElem? hb.new) old.module (h.holds.modules i old site hb)
    received s

/-- An evaluation reports only cycles of the module and of what it imports. -/
theorem evaluate_told (convert : Converter (StateM σ) τ) (current : Module τ) :
    ∀ base, Consistent base current → ∀ given s,
      Told base given ((evaluate convert current given).run s).1.1 := by
  induction current using Module.induction with
  | step current ih =>
    intro base h given s
    cases he : current.evaluated with
    | true =>
      rw [evaluate_evaluated he]
      exact .ok ()
    | false =>
      have hfill : Told base given
          (exec (fillOf convert current given) current.imports s).result := by
        rw [fillOf, h.scopeWith_eq]
        exact tells_substituteEntries current.resource.raw
          (fun i => upholds_demandImport (h.answering_imports convert) _ [] i)
          (fun _ _ i _ => h.told_demandFirst convert ih i) current.imports s h.holds
      rcases hrun : exec (fillOf convert current given) current.imports s with ⟨r, imports', s'⟩
      rw [hrun] at hfill
      cases r with
      | error e =>
        rw [evaluate_error he hrun]
        exact hfill.failure
      | ok raw =>
        rw [evaluate_ok he hrun]
        exact .ok ()

theorem evaluateImport_told (convert : Converter (StateM σ) τ) {current : Module τ}
    (h : Consistent base current) (given : Entries) (name : String) (s : σ) :
    Told base given ((evaluateImport convert current given name).run s).1.1 := by
  cases hi : current.imports.findIdx? (·.name = name) with
  | none =>
    rw [run_evaluateImport_unknown hi]
    exact .other fun _ h => by cases h
  | some index =>
    rw [run_evaluateImport hi, h.scopeWith_eq]
    have hmodules := fun (site : Import (Module τ)) (_ : site ∈ current.imports) old hold =>
      evaluate_told convert site.module old hold
    exact h.told_demandFirst convert hmodules index current.imports s h.holds

theorem Call.run_told (convert : Converter (StateM σ) τ) (call : Call) {current : Module τ}
    (h : Consistent base current) {s : σ} {text : String}
    (hresult : ((call.run convert current).run s).1.1 = .error (.cyclicImport text)) :
    ∃ target, base.moduleAt? call.place = some target ∧ FoundCycle target call.given text := by
  refine call.run_induction (P := fun base _ place _ left =>
    left.1.1 = .error (.cyclicImport text) →
      ∃ target, base.moduleAt? place = some target ∧ FoundCycle target call.given text)
    convert ?_ ?_ ?_ ?_ h s hresult
  · exact fun base current s h _ he =>
      ⟨base, rfl, evaluate_told convert current base h call.given s text he⟩
  · exact fun base current name s h _ he =>
      ⟨base, rfl, evaluateImport_told convert h call.given name s text he⟩
  · rintro base current index place s _ _ ⟨⟩
  · intro base current index place old site s left _ hb hfound he
    obtain ⟨target, htarget, hcycle⟩ := hfound he
    exact ⟨target, by rw [moduleAt?, hb.old, Option.bind_some, htarget], hcycle⟩

/-- What reaches itself is not grounded. -/
theorem Grounded.not_transGen {index : Nat} (h : Grounded base given index) :
    ¬ TransGen (Uses base given) index index := by
  induction h with
  | intro index _ ih =>
    intro hcycle
    obtain ⟨next, huses, hback⟩ := TransGen.head'_iff.1 hcycle
    exact ih next huses (TransGen.tail' hback huses)

end

/-- Cycles are found exactly. A call that reports a cycle names one, whatever was called before; an
evaluation of a loaded module fails if something demanded reaches itself; and no call, whatever was
called before, finds its chain and the marks in disagreement. -/
theorem runCalls_cycles {module : Module τ} (loaded : Loaded module)
    (convert : Converter (StateM σ) τ) :
    (∀ (before : List Call) (call : Call) (s : σ) (text : String),
      let left := (runCalls convert before module).run s
      ((call.run convert left.1.2).run left.2).1.1 = .error (.cyclicImport text) →
        ∃ target, module.moduleAt? call.place = some target ∧
          FoundCycle target call.given text) ∧
    (∀ (given : Entries) (index : Nat), Demanded module given index →
      TransGen (Uses module given) index index →
        ∀ s, ((evaluate convert module given).run s).1.1 ≠ .ok ()) ∧
    ∀ (alarm : StateT (List (Import (Module τ))) (StateM σ) Unit) (before : List Call) (call : Call)
      (s : σ),
      let left := (runCalls convert before module).run s
      (call.watch alarm convert left.1.2).run left.2 = (call.run convert left.1.2).run left.2 := by
  refine ⟨fun before call s text => ?_, fun given index hd hcycle s hok => ?_,
    fun alarm before call s => ?_⟩
  · exact call.run_told convert (loaded.fresh.consistent.runCalls convert before s).1
  · have hrun : (evaluate convert module given).run s =
        ((.ok (), ((evaluate convert module given).run s).1.2),
          ((evaluate convert module given).run s).2) := by
      rw [← hok]
      rfl
    exact (loaded.formed.grounded_of_evaluate hrun hd).not_transGen hcycle
  · exact Call.run_watch (loaded.fresh.consistent.runCalls convert before s).1 alarm convert call _

def ringFiles : Source (StateM Unit) where
  read path := return .ok (
    if path = "ring.yaml" then
      [[("imports", .list [
          .map [("a", .string "part.yaml"), ("params", .map [("v", .string "${b}")])],
          .map [("b", .string "part.yaml"), ("params", .map [("v", .string "${a}")])]]),
        ("pod", .string "${a}")]]
    else [[("params", .list [.string "v"]), ("svc", .string "${v}")]])
  resolve _ written := return .ok written

def ringPart : Module Unit :=
  ⟨"part.yaml", [], [("v", ⟨none, none⟩)], false, ⟨[("svc", .string "${v}")], none⟩, []⟩

def ringModule : Module Unit where
  path := "ring.yaml"
  imports := [⟨"a", "part.yaml", [("v", .string "${b}")], .unevaluated, ringPart⟩,
    ⟨"b", "part.yaml", [("v", .string "${a}")], .unevaluated, ringPart⟩]
  params := []
  evaluated := false
  resource := ⟨[("pod", .string "${a}")], none⟩
  diagnostics := []

theorem ringModule_loaded : Loaded ringModule := by
  have hload : (exec (load ringFiles.cached 1 "ring.yaml") none ()).result = .ok [ringModule] := rfl
  exact .section ringFiles 1 "ring.yaml" none () hload (List.mem_singleton_self ringModule)

theorem ringModule_demanded : Demanded ringModule [] 0 := by
  have hheads : heads ringModule.resource.raw = ["a"] := by decide +kernel
  exact .resource (by rw [hheads]; exact List.mem_singleton_self "a") ⟨rfl, _, rfl, rfl⟩

theorem ringModule_reaches : TransGen (Uses ringModule []) 0 0 := by
  have hb : heads [("v", .string "${b}")] = ["b"] := by decide +kernel
  have ha : heads [("v", .string "${a}")] = ["a"] := by decide +kernel
  refine (TransGen.single ?_).tail ?_ (b := 1)
  · exact ⟨_, rfl, "b", by rw [hb]; exact List.mem_singleton_self "b", rfl, _, rfl, rfl⟩
  · exact ⟨_, rfl, "a", by rw [ha]; exact List.mem_singleton_self "a", rfl, _, rfl, rfl⟩

theorem ringModule_reports :
    (((Call.atRoot [] none).run asUnit ringModule).run ()).1.1 =
      .error (.cyclicImport "ring.yaml: a → b → a") := by
  decide +kernel

theorem runCalls_cycles_ring :
    Loaded ringModule ∧
    (∃ target, ringModule.moduleAt? [] = some target ∧
      FoundCycle target [] "ring.yaml: a → b → a") ∧
    ((evaluate asUnit ringModule []).run ()).1.1 ≠ .ok () := by
  obtain ⟨hsound, hcomplete, _⟩ := runCalls_cycles ringModule_loaded asUnit
  exact ⟨ringModule_loaded, hsound [] (.atRoot [] none) () _ ringModule_reports,
    hcomplete [] 0 ringModule_demanded ringModule_reaches ()⟩

end ManifestModules.Module
