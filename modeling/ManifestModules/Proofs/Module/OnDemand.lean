import ManifestModules.Proofs.Module.Consistent
import ManifestModules.Proofs.Module.Demand
import ManifestModules.Proofs.Module.Memoization

/-!
# Evaluation on demand

A successful evaluation of a loaded module evaluates exactly the imports that are demanded, in the
module and in the modules of these imports, and leaves all others as they were. A demand that has
been met is closed: all that the parameter templates of the import name has been met before it. So a
met demand is never part of a cycle.
-/

namespace ManifestModules.Module

open Template

variable {σ τ α β : Type}

/-- An import uses only imports that are evaluated before it. -/
def Grounded (base : Module τ) (given : Entries) (index : Nat) : Prop :=
  Acc (fun other index => Uses base given index other) index

def EvaluatedAt (imports : List (Import (Module τ))) (index : Nat) : Prop :=
  ∃ site, imports[index]? = some site ∧ site.state = .evaluated

def Receives (module : Module τ) (given : Entries) (index : Nat) (site : Import (Module τ))
    (received : Entries) : Prop :=
  paramsByName (fun _ => false) module given [] index site = .ok received

/-- The module `after` is what a successful evaluation of `before` leaves: the demanded imports, and
no others, are evaluated, each with the parameters that it receives. -/
inductive OnDemand (convert : Converter (StateM σ) τ) : Module τ → Entries → Module τ → Prop
  | intro {before : Module τ} {given : Entries} {after : Module τ}
    (evaluated : after.evaluated = true)
    (same : after.imports.map declared = before.imports.map declared)
    (demanded : ∀ i old new, Became before.imports after.imports i old new →
      (new.state = .evaluated ↔ Demanded before given i))
    (untouched : ∀ i old new, Became before.imports after.imports i old new →
      ¬ Demanded before given i → new = old)
    (received : ∀ i old new, Became before.imports after.imports i old new →
      Demanded before given i → ∃ received, Receives before given i old received)
    (keys : ∀ i old received, Receives before given i old received →
      received.map Prod.fst = old.params.map Prod.fst)
    (run : ∀ i old new, Became before.imports after.imports i old new → Demanded before given i →
      ∀ received, Receives before given i old received →
        ∃ s s', (evaluate convert old.module received).run s = ((.ok (), new.module), s'))
    (modules : ∀ i old new, Became before.imports after.imports i old new →
      Demanded before given i → ∀ received, Receives before given i old received →
        OnDemand convert old.module received new.module) :
    OnDemand convert before given after

section

variable (convert : Converter (StateM σ) τ) (base : Module τ) (given : Entries)

structure Achieved (index : Nat) (old : Import (Module τ)) (module : Module τ)
    (received : Entries) : Prop where
  receives : Receives base given index old received
  run : ∃ s s', (evaluate convert old.module received).run s = ((.ok (), module), s')
  onDemand : OnDemand convert old.module received module

structure Meets (chain : List Nat) (imports : List (Import (Module τ))) : Prop where
  underway : Underway (fun _ => false) base given chain imports
  demanded : ∀ (i : Nat) (site : Import (Module τ)), imports[i]? = some site →
    site.state ≠ .unevaluated → Demanded base given i
  untouched : ∀ i old site, Became base.imports imports i old site →
    site.state = .unevaluated → site = old
  closed : ∀ i, EvaluatedAt imports i → ∀ j, Uses base given i j → EvaluatedAt imports j
  grounded : ∀ i, EvaluatedAt imports i → Grounded base given i
  achieved : ∀ i old site, Became base.imports imports i old site → site.state = .evaluated →
    ∃ received, Achieved convert base given i old site.module received

structure Met (chain : List Nat) (asked : List String) (before after : List (Import (Module τ))) :
    Prop where
  meets : Meets convert base given chain after
  grows : ∀ i, EvaluatedAt before i → EvaluatedAt after i
  answered : ∀ ident ∈ asked, ∀ i, Names base given (headOf ident) i → EvaluatedAt after i

/-- Whenever a computation succeeds, it has met the demands of the identifiers asked for. -/
def Meeting (chain : List Nat) (asked : List String) (x : Scoped (StateM σ) τ α) : Prop :=
  ∀ imports s, Meets convert base given chain imports → ∀ a, (exec x imports s).result = .ok a →
    Met convert base given chain asked imports (exec x imports s).state

end

variable {convert : Converter (StateM σ) τ} {base : Module τ} {given : Entries}
  {chain : List Nat} {imports imports' : List (Import (Module τ))} {asked later : List String}

section

variable {index : Nat} {old site site' : Import (Module τ)}

theorem Changed.evaluatedAt (hchanged : Changed imports imports' index site')
    (hsite : imports[index]? = some site) (hopen : site.state ≠ .evaluated) {i : Nat}
    (h : EvaluatedAt imports i) : EvaluatedAt imports' i := by
  obtain ⟨at_i, hi, hs⟩ := h
  have hne : i ≠ index := by
    rintro rfl
    rw [hsite] at hi
    cases hi
    exact hopen hs
  exact ⟨at_i, (hchanged.other i hne).trans hi, hs⟩

theorem Changed.evaluatedAt_cases (hchanged : Changed imports imports' index site') {i : Nat}
    (h : EvaluatedAt imports' i) :
    i = index ∧ site'.state = .evaluated ∨ EvaluatedAt imports i := by
  obtain ⟨now, hnow, hs⟩ := h
  obtain ⟨rfl, rfl⟩ | ⟨_, hi⟩ := hchanged.getElem?_cases hnow
  · exact .inl ⟨rfl, hs⟩
  · exact .inr ⟨now, hi, hs⟩

/-- One demanded import that is not evaluated yet changes. -/
theorem Meets.changed {chain' : List Nat} (h : Meets convert base given chain imports)
    (hchanged : Changed imports imports' index site')
    (hunderway : Underway (fun _ => false) base given chain' imports')
    (hb : Became base.imports imports index old site) (hopen : site.state ≠ .evaluated)
    (hdemanded : Demanded base given index) (hstate : site'.state ≠ .unevaluated)
    (huses : site'.state = .evaluated → ∀ j, Uses base given index j → EvaluatedAt imports j)
    (hachieved : site'.state = .evaluated →
      ∃ received, Achieved convert base given index old site'.module received) :
    Meets convert base given chain' imports' := by
  have hgrows {i : Nat} (hi : EvaluatedAt imports i) : EvaluatedAt imports' i :=
    hchanged.evaluatedAt hb.new hopen hi
  refine ⟨hunderway, ?_, ?_, ?_, ?_, ?_⟩
  · intro i now hnow hs
    obtain ⟨rfl, rfl⟩ | ⟨_, hi⟩ := hchanged.getElem?_cases hnow
    · exact hdemanded
    · exact h.demanded i now hi hs
  · intro i was now hnow hs
    obtain ⟨rfl, rfl⟩ | ⟨_, hi⟩ := hchanged.getElem?_cases hnow.new
    · exact absurd hs hstate
    · exact h.untouched i was now ⟨hnow.old, hi⟩ hs
  · intro i hi j hj
    obtain ⟨rfl, hs⟩ | hi := hchanged.evaluatedAt_cases hi
    · exact hgrows (huses hs j hj)
    · exact hgrows (h.closed i hi j hj)
  · intro i hi
    obtain ⟨rfl, hs⟩ | hi := hchanged.evaluatedAt_cases hi
    · exact Acc.intro i fun j hj => h.grounded j (huses hs j hj)
    · exact h.grounded i hi
  · intro i was now hnow hs
    obtain ⟨rfl, rfl⟩ | ⟨_, hi⟩ := hchanged.getElem?_cases hnow.new
    · cases hb.old.symm.trans hnow.old
      exact hachieved hs
    · exact h.achieved i was now ⟨hnow.old, hi⟩ hs

end

theorem Met.refl (h : Meets convert base given chain imports) :
    Met convert base given chain [] imports imports :=
  ⟨h, fun _ hi => hi, fun _ hmem => absurd hmem List.not_mem_nil⟩

theorem Meeting.failure (e : Failure) :
    Meeting convert base given chain asked (throw e : Scoped (StateM σ) τ α) := by
  intro imports s h a ha
  cases ha

theorem Meeting.pure (a : α) :
    Meeting convert base given chain [] (Pure.pure a : Scoped (StateM σ) τ α) :=
  fun _ _ h _ _ => .refl h

theorem Meeting.bind {x : Scoped (StateM σ) τ α} {f : α → Scoped (StateM σ) τ β}
    (hx : Meeting convert base given chain asked x)
    (hf : ∀ a, Meeting convert base given chain later (f a)) :
    Meeting convert base given chain (asked ++ later) (x >>= f) := by
  intro imports s h b hb
  rcases hrun : exec x imports s with ⟨r, imports', s'⟩
  cases r with
  | error e =>
    rw [exec_bind_error hrun] at hb
    cases hb
  | ok a =>
    have hfirst : Met convert base given chain asked imports imports' := by
      have hmet := hx imports s h a (by rw [hrun])
      rwa [hrun] at hmet
    rw [exec_bind_ok hrun] at hb ⊢
    have hsecond := hf a imports' s' hfirst.meets b hb
    refine ⟨hsecond.meets, fun i hi => hsecond.grows i (hfirst.grows i hi), ?_⟩
    intro ident hident i hi
    rcases List.mem_append.1 hident with hmem | hmem
    · exact hsecond.grows i (hfirst.answered ident hmem i hi)
    · exact hsecond.answered ident hmem i hi

def meeting (convert : Converter (StateM σ) τ) (base : Module τ) (given : Entries)
    (chain : List Nat) : Property (StateT (List (Import (Module τ))) (StateM σ)) where
  Rel asked x _ := Meeting convert base given chain asked x
  pure := Meeting.pure
  bind := Meeting.bind
  fillMismatch _ _ _ _ := Meeting.failure _
  spreadMismatch _ _ _ := Meeting.failure _

section

variable {demand : Nat → Scoped (StateM σ) τ Unit}

variable (convert base given chain demand) in
def MeetsDemand (index : Nat) : Prop :=
  ∀ imports s, Meets convert base given chain imports → ∀ a,
    (exec (demand index) imports s).result = .ok a →
      Met convert base given chain [] imports (exec (demand index) imports s).state ∧
        EvaluatedAt (exec (demand index) imports s).state index

theorem meeting_resolveIn (hnodup : (base.imports.map (·.name)).Nodup) {ident : String}
    (hdemand : ∀ index, Names base given (headOf ident) index →
      MeetsDemand convert base given chain demand index) :
    Meeting convert base given chain [ident]
      (resolveIn (base.scopeWith given) demand ident) := by
  intro imports s h a ha
  have hresolved := resolved (base.scopeWith given) demand ident imports s
  generalize exec (resolveIn _ demand ident) imports s = left at hresolved ha ⊢
  cases hresolved with
  | param found =>
    refine ⟨h, fun _ hi => hi, fun other hmem i hi => ?_⟩
    rw [List.mem_singleton] at hmem
    subst hmem
    cases found.symm.trans hi.unbound
  | unknown => cases ha
  | refused => cases ha
  | answered index noParam found hrun =>
    rw [findIdx?_of_declared h.underway.tracks.same] at found
    obtain ⟨hmet, hevaluated⟩ :=
      hdemand index (names_of_findIdx? noParam found) imports s h () (by rw [hrun])
    rw [hrun] at hmet hevaluated
    refine ⟨hmet.meets, hmet.grows, fun other hmem i hnames => ?_⟩
    rw [List.mem_singleton] at hmem
    subst hmem
    cases found.symm.trans (findIdx?_of_names hnodup hnames)
    exact hevaluated

theorem meeting_substituteEntries (hnodup : (base.imports.map (·.name)).Nodup)
    (templates : Entries) (hdemand : ∀ head ∈ heads templates, ∀ index,
      Names base given head index → MeetsDemand convert base given chain demand index) :
    Meeting convert base given chain (entryIdents templates)
      (substituteEntries (resolveIn (base.scopeWith given) demand) templates) :=
  (meeting convert base given chain).substituteEntries templates fun ident hident =>
    meeting_resolveIn hnodup (hdemand (headOf ident) (List.mem_map_of_mem hident))

/-- After a success all imports that the templates name are evaluated. -/
theorem Met.heads {templates : Entries}
    (h : Met convert base given chain (entryIdents templates) imports imports') {head : String}
    (hhead : head ∈ heads templates) {index : Nat} (hnames : Names base given head index) :
    EvaluatedAt imports' index := by
  obtain ⟨ident, hident, rfl⟩ := List.mem_map.1 hhead
  exact h.answered ident hident index hnames

end

section

variable {index : Nat} {old site : Import (Module τ)} {room : Nat}

/-- The first demand of an import. -/
theorem met_whileEvaluating {demand : Nat → Scoped (StateM σ) τ Unit} (s : σ)
    (hnodup : (base.imports.map (·.name)).Nodup)
    (hfollows : ∀ i, Follows (fun _ => false) base given (chain ++ [index]) (demandBody demand i)
      fun other => ExceptT.mk (bodyByName (fun _ => false) base given other i))
    (hdemand : ∀ i, Demanded base given i →
      MeetsDemand convert base given (chain ++ [index]) demand i)
    (hmodule : ∀ received s s' module,
      (evaluate convert old.module received).run s = ((.ok (), module), s') →
        OnDemand convert old.module received module)
    (h : Meets convert base given chain imports) (hb : Became base.imports imports index old site)
    (hs : site.state = .unevaluated) (hd : Demanded base given index)
    {trace : Trace (List (Import (Module τ))) σ Unit}
    (htrace : exec (Scoped.whileEvaluating index
      (substituteEntries (resolveIn (base.scopeWith given) demand) old.params >>=
        Scoped.runEvaluator index (evaluate convert old.module))) imports s = trace)
    (hunderway : Underway (fun _ => false) base given chain trace.state) {a : Unit}
    (ha : trace.result = .ok a) :
    Met convert base given chain [] imports trace.state ∧ EvaluatedAt trace.state index := by
  have hopen : site.state ≠ .evaluated := by rw [hs]; simp
  have hentered : Meets convert base given (chain ++ [index]) (mark imports index .evaluating) :=
    h.changed (.mark _ hb.new) (h.underway.enter hb hs rfl) hb hopen hd (by simp)
      (fun hs' => by cases hs') (fun hs' => by cases hs')
  have hfill := meeting_substituteEntries hnodup old.params
    (fun head hhead i hi => hdemand i (hd.params ⟨old, hb.old, head, hhead, hi⟩)) _ s hentered
  have hfollow := follows_substituteEntries hfollows old.params _ s hentered.underway
  have hworked := worked (substituteEntries (resolveIn (base.scopeWith given) demand) old.params)
    (evaluate convert old.module) index (mark imports index .evaluating) s
  rw [exec_whileEvaluating] at htrace
  generalize exec (_ >>= _) (mark imports index .evaluating) s = left at hworked htrace
  subst htrace
  cases hworked with
  | refused hrun => cases ha
  | @ran params imports₂ s₂ s₃ result module hrun hev =>
    cases ha
    rw [hrun] at hfill hfollow
    have hmet := hfill params rfl
    obtain ⟨site₂, hb₂⟩ := became_of_declared hmet.meets.underway.tracks.same hb.old
    have hopen₂ := hmet.meets.underway.isEvaluating hb₂.new
    have hreceives : Receives base given index old params :=
      hmet.meets.underway.paramsByName_eq (hfollow.ok params rfl) (by intro i hi; cases hi)
    have hstored : Changed imports₂ (store imports₂ index module) index { site₂ with module } :=
      .store module hb₂.new
    have hchanged := hstored.trans (.mark .evaluated hstored.new)
    have hmeets := hmet.meets.changed hchanged hunderway hb₂ hopen₂ hd (by simp)
      (fun _ j ⟨was, hwas, head, hhead, hnames⟩ => by
        cases hb.old.symm.trans hwas
        exact hmet.heads hhead hnames)
      (fun _ => ⟨params, hreceives, ⟨s₂, s₃, hev⟩, hmodule params s₂ s₃ module hev⟩)
    refine ⟨⟨hmeets, fun i hi => ?_, fun _ hmem => absurd hmem List.not_mem_nil⟩,
      _, hchanged.new, rfl⟩
    have hmarked : Changed imports (mark imports index .evaluating) index _ := .mark _ hb.new
    exact hchanged.evaluatedAt hb₂.new hopen₂
      (hmet.grows i (hmarked.evaluatedAt hb.new hopen hi))

/-- Only the first demand of an import takes work. -/
theorem met_of_first {evaluators : List (Evaluator (StateM σ) τ)}
    {evaluator : Evaluator (StateM σ) τ} (hold : base.imports[index]? = some old)
    (hevaluator : evaluators[index]? = some evaluator) {s : σ}
    (h : Meets convert base given chain imports) {trace : Trace (List (Import (Module τ))) σ Unit}
    (htrace : exec (demandImport (base.scopeWith given) evaluators room chain index) imports s =
      trace) {a : Unit} (ha : trace.result = .ok a)
    (hfirst : ∀ site, Became base.imports imports index old site → site.state = .unevaluated →
      Met convert base given chain [] imports trace.state ∧ EvaluatedAt trace.state index) :
    Met convert base given chain [] imports trace.state ∧ EvaluatedAt trace.state index := by
  obtain ⟨site, hb⟩ := became_of_declared h.underway.tracks.same hold
  cases hs : site.state with
  | evaluated =>
    rw [exec_demandImport_evaluated s hb.new hs] at htrace
    subst htrace
    exact ⟨.refl h, site, hb.new, hs⟩
  | evaluating =>
    rw [exec_demandImport_evaluating s hb.new hevaluator hs] at htrace
    subst htrace
    cases ha
  | unevaluated => exact hfirst site hb hs

/-- Demands are met one inside the other: each is made by what is demanded already. -/
theorem meetsDemand_demandImport {evaluators : List (Evaluator (StateM σ) τ)}
    (hnodup : (base.imports.map (·.name)).Nodup)
    (hsupplies : Supplies (fun _ => false) base given evaluators)
    (hevaluators : ∀ (i : Nat) (old : Import (Module τ)), base.imports[i]? = some old →
      evaluators[i]? = some (evaluate convert old.module))
    (hmodules : ∀ old ∈ base.imports, ∀ received s s' module,
      (evaluate convert old.module received).run s = ((.ok (), module), s') →
        OnDemand convert old.module received module)
    (hroom : Module.room base.imports.length chain ≤ room) (hd : Demanded base given index) :
    MeetsDemand convert base given chain (demandImport (base.scopeWith given) evaluators room chain)
      index := by
  induction room generalizing chain index with
  | zero =>
    obtain ⟨old, hold⟩ := hd.exists_site
    intro imports s h a ha
    refine met_of_first hold (hevaluators index old hold) h rfl ha fun site hb hs => ?_
    have hlt := room_append_lt (List.getElem?_eq_some_iff.1 hold).1
      (h.underway.tracks.not_mem hb.new hs)
    omega
  | succ room ih =>
    obtain ⟨old, hold⟩ := hd.exists_site
    intro imports s h a ha
    have hsettles : Settles (fun _ => false) base given chain index imports
        (exec (demandImport (base.scopeWith given) evaluators (room + 1) chain index) imports s) :=
      settles_demandImport hsupplies hroom h.underway s
    refine met_of_first hold (hevaluators index old hold) h rfl ha fun site hb hs => ?_
    have hlt := room_append_lt (List.getElem?_eq_some_iff.1 hold).1
      (h.underway.tracks.not_mem hb.new hs)
    have hrun : exec (demandImport (base.scopeWith given) evaluators (room + 1) chain index)
        imports s = _ :=
      exec_demandImport_unevaluated s hb.new (hevaluators index old hold) hs
    rw [h.underway.tracks.params_eq hb] at hrun
    exact met_whileEvaluating s hnodup
      (fun i imports s hu => (settles_demandImport hsupplies (by omega) hu s).agrees)
      (fun i hi => ih (by omega) hi) (hmodules old (List.mem_of_getElem? hold)) h hb hs hd hrun.symm
      hsettles.underway ha

end

section

/-- At the beginning nothing is evaluated, so that all demands so far have been met. -/
theorem Formed.meets (h : Formed base) (convert : Converter (StateM σ) τ) (given : Entries) :
    Meets convert base given [] base.imports := by
  have hprogress := (h.fresh.ready (fun _ _ => rfl)).progress given
  have hidle {i : Nat} {site : Import (Module τ)} (hi : base.imports[i]? = some site) :
      site.state = .unevaluated := by
    cases h with
    | intro _ _ _ _ _ idle _ => exact idle site (List.mem_of_getElem? hi)
  have hnone {i : Nat} (hi : EvaluatedAt base.imports i) : False := by
    obtain ⟨site, hsite, hs⟩ := hi
    rw [hidle hsite] at hs
    cases hs
  refine ⟨hprogress.underway, ?_, ?_, ?_, ?_, ?_⟩
  · intro i site hi hs
    exact absurd (hidle hi) hs
  · intro i old site hb _
    exact Option.some.inj (hb.new.symm.trans hb.old)
  · intro i hi
    exact (hnone hi).elim
  · intro i hi
    exact (hnone hi).elim
  · intro i old site hb hs
    exact (hnone ⟨site, hb.new, hs⟩).elim

/-- When the resource is filled, exactly what is demanded is evaluated. -/
theorem Met.evaluatedAt_iff
    (h : Met convert base given [] (entryIdents base.resource.raw) imports imports') (i : Nat) :
    EvaluatedAt imports' i ↔ Demanded base given i := by
  constructor
  · rintro ⟨site, hsite, hs⟩
    exact h.meets.demanded i site hsite (by rw [hs]; simp)
  · intro hd
    induction hd with
    | resource mem names => exact h.heads mem names
    | params _ uses ih => exact h.meets.closed _ ih _ uses

/-- What is left when all demands of the resource have been met. -/
theorem Met.onDemand {after : Module τ}
    (h : Met convert base given [] (entryIdents base.resource.raw) imports after.imports)
    (he : after.evaluated = true) : OnDemand convert base given after := by
  have hiff {i : Nat} {site : Import (Module τ)} (hi : after.imports[i]? = some site) :
      site.state = .evaluated ↔ Demanded base given i := by
    rw [← h.evaluatedAt_iff]
    refine ⟨fun hs => ⟨site, hi, hs⟩, ?_⟩
    rintro ⟨same, hsame, hs⟩
    cases hi.symm.trans hsame
    exact hs
  have hachieved {i : Nat} {old new : Import (Module τ)}
      (hb : Became base.imports after.imports i old new) (hd : Demanded base given i)
      {received : Entries} (hreceived : Receives base given i old received) :
      Achieved convert base given i old new.module received := by
    obtain ⟨other, hother⟩ := h.meets.achieved i old new hb ((hiff hb.new).2 hd)
    cases hreceived.symm.trans hother.receives
    exact hother
  refine .intro he h.meets.underway.tracks.same ?_ ?_ ?_ ?_ ?_ ?_
  · exact fun i old new hb => hiff hb.new
  · intro i old new hb hd
    refine h.meets.untouched i old new hb ?_
    cases hs : new.state with
    | unevaluated => rfl
    | evaluating => cases (h.meets.underway.tracks.evaluating i new hb.new).1 hs
    | evaluated => exact absurd ((hiff hb.new).1 hs) hd
  · intro i old new hb hd
    obtain ⟨received, hreceived⟩ := h.meets.achieved i old new hb ((hiff hb.new).2 hd)
    exact ⟨received, hreceived.receives⟩
  · exact fun i old received hreceived => filled_keys hreceived
  · exact fun i old new hb hd received hreceived => (hachieved hb hd hreceived).run
  · exact fun i old new hb hd received hreceived => (hachieved hb hd hreceived).onDemand

/-- A successful evaluation meets all demands of the module. -/
theorem Formed.met_fillOf (h : Formed base)
    (hmodules : ∀ old ∈ base.imports, ∀ received s s' module,
      (evaluate convert old.module received).run s = ((.ok (), module), s') →
        OnDemand convert old.module received module) (given : Entries) :
    Meeting convert base given [] (entryIdents base.resource.raw) (fillOf convert base given) := by
  have hprogress := (h.fresh.ready (fun _ _ => rfl)).progress given
  have hsupplies : Supplies (fun _ => false) base given (importEvaluators convert base.imports) :=
    hprogress.supplies fun site _ old params hp s =>
      evaluate_achieves convert site.module old params hp s
  refine meeting_substituteEntries h.names_nodup _ fun head hhead i hi => ?_
  refine meetsDemand_demandImport h.names_nodup hsupplies ?_ hmodules ?_ (.resource hhead hi)
  · intro i old hold
    rw [importEvaluators_eq_map, List.getElem?_map, hold, Option.map_some]
  · refine Nat.le_of_eq ?_
    rw [room_nil, importEvaluators_eq_map, List.length_map]

/-- A successful evaluation has filled the resource, and thereby met all demands. -/
theorem Formed.met_of_evaluate (h : Formed base)
    (hmodules : ∀ old ∈ base.imports, ∀ received s s' module,
      (evaluate convert old.module received).run s = ((.ok (), module), s') →
        OnDemand convert old.module received module) {s s' : σ} {after : Module τ}
    (hrun : (evaluate convert base given).run s = ((.ok (), after), s')) :
    after.evaluated = true ∧
      Met convert base given [] (entryIdents base.resource.raw) base.imports after.imports := by
  have hfilled := h.met_fillOf hmodules given base.imports s (h.meets convert given)
  rcases hfill : exec (fillOf convert base given) base.imports s with ⟨r, imports', s₁⟩
  rw [hfill] at hfilled
  cases r with
  | error e =>
    rw [evaluate_error h.fresh.pending hfill] at hrun
    cases hrun
  | ok raw =>
    rw [evaluate_ok h.fresh.pending hfill] at hrun
    cases hrun
    exact ⟨rfl, hfilled raw rfl⟩

theorem Formed.evaluate_onDemand (h : Formed base) :
    ∀ given s s' after, (evaluate convert base given).run s = ((.ok (), after), s') →
      OnDemand convert base given after := by
  induction h with
  | intro shape params resource pending declared idle imports ih =>
    intro given s s' after hrun
    have h := Formed.intro shape params resource pending declared idle imports
    obtain ⟨he, hmet⟩ := h.met_of_evaluate (fun old hold => ih old hold) hrun
    exact hmet.onDemand he

/-- What a successful evaluation needs is grounded. -/
theorem Formed.grounded_of_evaluate (h : Formed base) {s s' : σ} {after : Module τ}
    (hrun : (evaluate convert base given).run s = ((.ok (), after), s')) {index : Nat}
    (hd : Demanded base given index) : Grounded base given index := by
  have himports (old : Import (Module τ)) (hold : old ∈ base.imports) : Formed old.module := by
    cases h with
    | intro _ _ _ _ _ _ imports => exact imports old hold
  obtain ⟨_, hmet⟩ := h.met_of_evaluate (fun old hold => (himports old hold).evaluate_onDemand) hrun
  exact hmet.meets.grounded index ((hmet.evaluatedAt_iff index).2 hd)

end

/-- The same modules and imports are evaluated in two trees. -/
inductive SameMarks : Module τ → Module τ → Prop
  | intro {module module' : Module τ} (evaluated : module.evaluated = module'.evaluated)
    (states : module.imports.map (·.state) = module'.imports.map (·.state))
    (modules : ∀ i site site', Became module.imports module'.imports i site site' →
      SameMarks site.module site'.module) : SameMarks module module'

theorem SameMarks.refl (module : Module τ) : SameMarks module module := by
  induction module using Module.induction with
  | step module ih =>
    refine .intro rfl rfl fun i site site' hb => ?_
    cases hb.old.symm.trans hb.new
    exact ih site (List.mem_of_getElem? hb.old)

/-- The imports of a module have the same marks after evaluations that demand the same of them. -/
theorem map_state_eq {before after after' : Module τ}
    (hsame : after.imports.map declared = before.imports.map declared)
    (hsame' : after'.imports.map declared = before.imports.map declared)
    (h : ∀ i old new new', Became before.imports after.imports i old new →
      Became before.imports after'.imports i old new' → new.state = new'.state) :
    after.imports.map (·.state) = after'.imports.map (·.state) := by
  refine List.ext_getElem? fun i => ?_
  rw [List.getElem?_map, List.getElem?_map]
  cases hnew : after.imports[i]? with
  | none =>
    have hold := getElem?_none_of_declared hsame hnew
    rw [getElem?_none_of_declared hsame'.symm hold]
  | some new =>
    obtain ⟨old, hold, _⟩ := declared_eq_of_getElem? hsame hnew
    obtain ⟨new', hb'⟩ := became_of_declared hsame' hold
    rw [hb'.new, Option.map_some, Option.map_some, h i old new new' ⟨hold, hnew⟩ hb']

/-- Parameters with the same names lead to the same marks, whatever their values are. -/
theorem OnDemand.sameMarks {before after : Module τ} (h : OnDemand convert before given after) :
    ∀ given' after', SameKeys given given' → OnDemand convert before given' after' →
      SameMarks after after' := by
  induction h with
  | @intro before given after evaluated same demanded untouched received keys _ _ ih =>
    intro given' after' hkeys h'
    cases h' with
    | intro evaluated' same' demanded' untouched' received' keys' _ modules' =>
      refine .intro (evaluated.trans evaluated'.symm)
        (map_state_eq same same' fun i old new new' hb hb' => ?_) fun i new new' hb => ?_
      · by_cases hd : Demanded before given i
        · have hd' := (demanded_iff_of_sameKeys hkeys i).1 hd
          rw [(demanded i old new hb).2 hd, (demanded' i old new' hb').2 hd']
        · have hd' := mt (demanded_iff_of_sameKeys hkeys i).2 hd
          rw [untouched i old new hb hd, untouched' i old new' hb' hd']
      · obtain ⟨old, hold, _⟩ := declared_eq_of_getElem? same hb.old
        have hbold : Became before.imports after.imports i old new := ⟨hold, hb.old⟩
        have hbold' : Became before.imports after'.imports i old new' := ⟨hold, hb.new⟩
        by_cases hd : Demanded before given i
        · have hd' := (demanded_iff_of_sameKeys hkeys i).1 hd
          obtain ⟨params, hparams⟩ := received i old new hbold hd
          obtain ⟨params', hparams'⟩ := received' i old new' hbold' hd'
          have hsame : SameKeys params params' :=
            .of_keys_eq ((keys i old params hparams).trans (keys' i old params' hparams').symm)
          exact ih i old new hbold hd params hparams params' new'.module hsame
            (modules' i old new' hbold' hd' params' hparams')
        · have hd' := mt (demanded_iff_of_sameKeys hkeys i).2 hd
          rw [untouched i old new hbold hd, untouched' i old new' hbold' hd']
          exact .refl old.module

/-- A successful evaluation of a loaded module evaluates exactly what is demanded, here and in the
modules of the demanded imports. What that is depends on the names of the given parameters, not on
their values. -/
theorem onDemand_of_loaded {module after : Module τ} (loaded : Loaded module)
    (convert : Converter (StateM σ) τ) {given : Entries} {s s' : σ}
    (succeeds : (evaluate convert module given).run s = ((.ok (), after), s')) :
    OnDemand convert module given after ∧
    ∀ (given' : Entries) (t t' : σ) (after' : Module τ), SameKeys given given' →
      (evaluate convert module given').run t = ((.ok (), after'), t') → SameMarks after after' := by
  have honDemand := loaded.formed.evaluate_onDemand given s s' after succeeds
  refine ⟨honDemand, fun given' t t' after' hkeys hrun => ?_⟩
  exact honDemand.sameMarks given' after' hkeys
    (loaded.formed.evaluate_onDemand given' t t' after' hrun)

/-- A deployment with an import that only another one names, and one that nothing names: the
parameter that mentions it is not searched for holes. -/
def deploymentFiles : Source (StateM Unit) where
  read path := return .ok (
    if path = "deployment.yaml" then
      [[("deployment", .list [.string "${web}", .string "${tag}", .string "${base.ports...}"]),
        ("imports", .list [
          .map [("params", .map [("image", .string "${base.name}:${tag}")]),
            ("web", .string "web.yaml")],
          .map [("base", .string "base.yaml")], .map [("spare", .string "spare.yaml")],
          .map [("tag", .string "spare.yaml")]])]]
    else if path = "web.yaml" then
      [[("container", .string "${image}"), ("params", .list [.string "image"])]]
    else if path = "base.yaml" then
      [[("svc", .map [("name", .string "nginx"), ("ports", .list [.string "http"])])]]
    else [[("svc", .string "${missing}")]])
  resolve _ written := return .ok written

def deploymentImport (name path : String) (params : Entries) (declared : Table Parameter)
    (raw : Entries) : Import (Module Unit) :=
  ⟨name, path, params, .unevaluated, ⟨path, [], declared, false, ⟨raw, none⟩, []⟩⟩

def deploymentModule : Module Unit where
  path := "deployment.yaml"
  imports := [
    deploymentImport "web" "web.yaml" [("image", .string "${base.name}:${tag}")]
      [("image", ⟨none, none⟩)] [("container", .string "${image}")],
    deploymentImport "base" "base.yaml" [] []
      [("svc", .map [("name", .string "nginx"), ("ports", .list [.string "http"])])],
    deploymentImport "spare" "spare.yaml" [] [] [("svc", .string "${missing}")],
    deploymentImport "tag" "spare.yaml" [] [] [("svc", .string "${missing}")]]
  params := []
  evaluated := false
  resource := ⟨[("deployment",
    .list [.string "${web}", .string "${tag}", .string "${base.ports...}"])], none⟩
  diagnostics := []

theorem deploymentModule_loaded : Loaded deploymentModule := by
  have hload : (exec (load deploymentFiles.cached 1 "deployment.yaml") none ()).result =
      .ok [deploymentModule] := rfl
  exact .section deploymentFiles 1 "deployment.yaml" none () hload
    (List.mem_singleton_self deploymentModule)

def deploymentAfter (tag : String) : Module Unit :=
  ((evaluate asUnit deploymentModule [("tag", .string tag)]).run ()).1.2

example : (deploymentAfter "${spare}").imports.map (·.state) =
    [.evaluated, .evaluated, .unevaluated, .unevaluated] := by decide +kernel

theorem eq_of_ok {left : (Except Failure Unit × Module Unit) × Unit} (h : left.1.1 = .ok ()) :
    left = ((.ok (), left.1.2), ()) := by
  rw [← h]

theorem deploymentAfter_spare :
    (evaluate asUnit deploymentModule [("tag", .string "${spare}")]).run () =
      ((.ok (), deploymentAfter "${spare}"), ()) := by
  have hok : ((evaluate asUnit deploymentModule [("tag", .string "${spare}")]).run ()).1.1 =
      .ok () := by decide +kernel
  rw [deploymentAfter]
  exact eq_of_ok hok

theorem deploymentAfter_version :
    (evaluate asUnit deploymentModule [("tag", .string "1.0")]).run () =
      ((.ok (), deploymentAfter "1.0"), ()) := by
  have hok : ((evaluate asUnit deploymentModule [("tag", .string "1.0")]).run ()).1.1 =
      .ok () := by decide +kernel
  rw [deploymentAfter]
  exact eq_of_ok hok

theorem onDemand_of_loaded_deployment :
    (Loaded deploymentModule ∧
      (evaluate asUnit deploymentModule [("tag", .string "${spare}")]).run () =
        ((.ok (), deploymentAfter "${spare}"), ()) ∧
      (evaluate asUnit deploymentModule [("tag", .string "1.0")]).run () =
        ((.ok (), deploymentAfter "1.0"), ())) ∧
    OnDemand asUnit deploymentModule [("tag", .string "${spare}")] (deploymentAfter "${spare}") ∧
    SameMarks (deploymentAfter "${spare}") (deploymentAfter "1.0") := by
  have hdemand := onDemand_of_loaded deploymentModule_loaded asUnit deploymentAfter_spare
  exact ⟨⟨deploymentModule_loaded, deploymentAfter_spare, deploymentAfter_version⟩, hdemand.1,
    hdemand.2 [("tag", .string "1.0")] () () (deploymentAfter "1.0") (fun _ => Iff.rfl)
      deploymentAfter_version⟩

end ManifestModules.Module
