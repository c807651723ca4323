import ManifestModules.Proofs.Module.Calls
import ManifestModules.Proofs.Module.Likeness
import ManifestModules.Proofs.Module.Tree
import ManifestModules.Proofs.Relator
import ManifestModules.Proofs.Template.Correspondence
import ManifestModules.Proofs.Template.Suggest

/-!
# Evaluation is uniform in its converter

Evaluation reaches its surroundings only through the converter. A relation between computations that
is respected by returning and by sequencing therefore carries over from the conversions of two
converters to whole evaluations of modules that are alike, and these stay alike.
-/

namespace ManifestModules.Module

open Template

variable {m m' : Type → Type} [Monad m] [Monad m'] {τ τ' : Type}

abbrev OnImports (m : Type → Type) (τ : Type) := StateT (List (Import (Module τ))) m

def Call.moved (ρ : Rearrangement) (call : Call) : Call :=
  { call with place := ρ.moved call.place }

theorem Call.moved_still (call : Call) : call.moved .still = call := by
  rw [moved, Rearrangement.moved_still]

namespace Likeness

section

variable (l : Likeness τ τ')

/-- Two pieces of work have the same outcome and leave modules that are alike. -/
structure Left {ν : Type} (ρ : Rearrangement) (left : ν × Module τ) (left' : ν × Module τ') :
    Prop where
  outcome : left'.1 = left.1
  alike : l.Alike ρ left.2 left'.2

def inModule (r : Relator m m') (ρ : Rearrangement) : Relator (Scoped m τ) (Scoped m' τ') :=
  (r.onState (Aligned l.Alike l.Listed ρ)).failing

def Evaluates (r : Relator m m') (ρ : Rearrangement) (evaluator : Evaluator m τ)
    (evaluator' : Evaluator m' τ') : Prop :=
  ∀ given, r.Rel (l.Left ρ) (evaluator given) (evaluator' given)

structure Supplied (r : Relator m m') (ρ : Rearrangement) (evaluators : List (Evaluator m τ))
    (evaluators' : List (Evaluator m' τ')) : Prop where
  none_iff : ∀ i, evaluators'[ρ [] i]? = none ↔ evaluators[i]? = none
  evaluates : ∀ i evaluator evaluator', evaluators[i]? = some evaluator →
    evaluators'[ρ [] i]? = some evaluator' → l.Evaluates r (ρ.below i) evaluator evaluator'

/-- Two converters do the same, as far as conversions are told apart. -/
def Converts (r : Relator m m') (convert : Converter m τ) (convert' : Converter m' τ') : Prop :=
  ∀ path raw, r.Rel l.Typed (convertResource convert path raw) (convertResource convert' path raw)

end

variable {l : Likeness τ τ'} {r : Relator m m'} {ρ : Rearrangement}

theorem setState (i : Nat) (state : ImportState) :
    (r.onState (Aligned l.Alike l.Listed ρ)).Rel Eq (Scoped.setState i state)
      (Scoped.setState (ρ [] i) state) :=
  r.onState_modify fun _ _ h => h.mark i state

theorem whileEvaluating {work : Scoped m τ Unit} {work' : Scoped m' τ' Unit} (i : Nat)
    (h : (l.inModule r ρ).Rel Eq work work') :
    (l.inModule r ρ).Rel Eq (Scoped.whileEvaluating i work)
      (Scoped.whileEvaluating (ρ [] i) work') := by
  have hleave (state : ImportState) (result : Except Failure Unit) :
      (r.onState (Aligned l.Alike l.Listed ρ)).Rel (SameOutcome Eq)
        (Scoped.setState i state >>= fun _ => pure result)
        (Scoped.setState (ρ [] i) state >>= fun _ => pure result) :=
    (r.onState _).bind (setState i state) fun _ _ _ => (r.onState _).pure (.refl result)
  apply (r.onState _).bind (setState i .evaluating)
  intro _ _ _
  apply (r.onState _).bind h
  intro _ _ hresult
  cases hresult with
  | ok _ => exact hleave .evaluated (.ok ())
  | error failure => exact hleave .unevaluated (.error failure)

theorem runEvaluator (i : Nat) {evaluator : Evaluator m τ} {evaluator' : Evaluator m' τ'}
    (h : l.Evaluates r (ρ.below i) evaluator evaluator') (params : Entries) :
    (l.inModule r ρ).Rel Eq (Scoped.runEvaluator i evaluator params)
      (Scoped.runEvaluator (ρ [] i) evaluator' params) := by
  apply (r.onState _).bind (Relator.liftState (h params))
  intro left left' hleft
  apply (r.onState _).bind (r.onState_modify fun _ _ haligned => haligned.store i hleft.alike)
  intro _ _ _
  apply (r.onState _).pure
  rw [hleft.outcome]
  exact .refl left.1

section

variable [LawfulMonad m] [LawfulMonad m']

theorem get : (l.inModule r ρ).Rel (Aligned l.Alike l.Listed ρ) MonadState.get MonadState.get :=
  Relator.lift r.get

def correspondence (l : Likeness τ τ') (r : Relator m m') (ρ : Rearrangement) :
    Correspondence (OnImports m τ) (OnImports m' τ') Unit where
  Rel _ x y := (l.inModule r ρ).Rel Eq x (y ())
  pure _ := (l.inModule r ρ).pure rfl
  bind hx hf := (l.inModule r ρ).bind hx fun a _ h => h ▸ hf a
  fillMismatch _ _ _ _ := Relator.throw _ _
  spreadMismatch _ _ _ := Relator.throw _ _

variable {scope : Scope} {demand : Nat → Scoped m τ Unit} {demand' : Nat → Scoped m' τ' Unit}

theorem resolveIn (h : ∀ i, (l.inModule r ρ).Rel Eq (demand i) (demand' (ρ [] i)))
    (ident : String) :
    (l.inModule r ρ).Rel Eq (resolveIn scope demand ident) (resolveIn scope demand' ident) := by
  simp only [Module.resolveIn]
  cases scope.params.lookup (splitIdent ident).1 with
  | some value => exact Relator.ofExcept _ (.refl _)
  | none =>
    apply (l.inModule r ρ).bind get
    intro imports imports' haligned
    rw [haligned.findIdx?]
    cases imports.findIdx? (·.name = (splitIdent ident).1) with
    | none =>
      have hnames (name : String) : name ∈ Table.keys scope.params ++ imports'.map (·.name) ↔
          name ∈ Table.keys scope.params ++ imports.map (·.name) := by
        rw [List.mem_append, List.mem_append, haligned.mem_names]
      -- The suggestions are ranked, so that the order of the names does not show in them.
      simp only [Option.map_none, similarNames_congr hnames]
      exact Relator.throw _ _
    | some i =>
      apply (l.inModule r ρ).bind (h i)
      intro _ _ _
      apply (l.inModule r ρ).bind get
      intro imports imports' haligned
      have hbody : imports'[ρ [] i]?.bind (·.module.resource.body?) =
          imports[i]?.bind (·.module.resource.body?) := haligned.bodyAt i
      rw [hbody]
      cases imports[i]?.bind (·.module.resource.body?) with
      | none => exact Relator.throw _ _
      | some body => exact Relator.ofExcept _ (.refl _)

theorem substituteEntries (h : ∀ i, (l.inModule r ρ).Rel Eq (demand i) (demand' (ρ [] i)))
    (templates : Entries) :
    (l.inModule r ρ).Rel Eq (substituteEntries (Module.resolveIn scope demand) templates)
      (substituteEntries (Module.resolveIn scope demand') templates) := by
  have hresolve (ident : String) : (l.correspondence r ρ).Rel [ident]
      (Module.resolveIn scope demand ident) fun _ => Module.resolveIn scope demand' ident :=
    resolveIn h ident
  exact (l.correspondence r ρ).substituteEntries templates fun ident _ => hresolve ident

variable {evaluators : List (Evaluator m τ)} {evaluators' : List (Evaluator m' τ')}
  (hsupplied : l.Supplied r ρ evaluators evaluators')
include hsupplied

theorem visitImport (chain : List Nat) (i : Nat)
    {go : Import (Module τ) → Evaluator m τ → Scoped m τ Unit}
    {go' : Import (Module τ') → Evaluator m' τ' → Scoped m' τ' Unit}
    (hgo : ∀ site site' evaluator evaluator', shown site' = shown site →
      l.Evaluates r (ρ.below i) evaluator evaluator' →
        (l.inModule r ρ).Rel Eq (go site evaluator) (go' site' evaluator')) :
    (l.inModule r ρ).Rel Eq (visitImport scope evaluators chain i go)
      (visitImport scope evaluators' (chain.map (ρ [])) (ρ [] i) go') := by
  apply (l.inModule r ρ).bind get
  intro imports imports' haligned
  cases hi : imports[i]? with
  | none =>
    rw [haligned.none_iff.2 hi]
    exact (l.inModule r ρ).pure rfl
  | some site =>
    obtain ⟨site', hi', hshown⟩ := haligned.exists_site hi
    have hstate : site'.state = site.state := congrArg Prod.snd hshown
    rw [hi', haligned.demandCycle]
    cases he : evaluators[i]? with
    | none =>
      rw [(hsupplied.none_iff i).2 he]
      exact (l.inModule r ρ).pure rfl
    | some evaluator =>
      have hsome : evaluators'[ρ [] i]? ≠ none := by simp [hsupplied.none_iff i, he]
      obtain ⟨evaluator', he'⟩ := Option.ne_none_iff_exists'.1 hsome
      simp only [he', hstate]
      cases site.state with
      | evaluated => exact (l.inModule r ρ).pure rfl
      | evaluating => exact Relator.throw _ _
      | unevaluated => exact hgo _ _ _ _ hshown (hsupplied.evaluates i evaluator evaluator' he he')

theorem demandImport (room : Nat) (chain : List Nat) (i : Nat) :
    (l.inModule r ρ).Rel Eq (demandImport scope evaluators room chain i)
      (demandImport scope evaluators' room (chain.map (ρ [])) (ρ [] i)) := by
  -- The room is the same on both sides: it counts imports, wherever they are listed.
  induction room generalizing chain i with
  | zero =>
    apply visitImport hsupplied
    intro _ _ _ _ _ _
    apply (l.inModule r ρ).bind get
    intro imports imports' haligned
    rw [haligned.demandCycle]
    exact Relator.throw _ _
  | succ room ih =>
    apply visitImport hsupplied
    intro site site' evaluator evaluator' hshown hevaluates
    have hparams : site'.params = site.params := congrArg (·.1.2.2) hshown
    have hdemand (j : Nat) := ih (chain ++ [i]) j
    simp only [List.map_append, List.map_singleton] at hdemand
    rw [hparams]
    apply whileEvaluating
    apply (l.inModule r ρ).bind (substituteEntries hdemand site.params)
    rintro params _ rfl
    exact runEvaluator i hevaluates params

theorem demandFirst (i : Nat) :
    (l.inModule r ρ).Rel Eq (demandFirst scope evaluators i)
      (demandFirst scope evaluators' (ρ [] i)) := by
  have hlength := length_eq_of_getElem?_none (ρ []) hsupplied.none_iff
  rw [Module.demandFirst, Module.demandFirst, hlength]
  exact demandImport hsupplied evaluators.length [] i

theorem fillResource (raw : Entries) :
    (l.inModule r ρ).Rel Eq (fillResource scope evaluators raw)
      (fillResource scope evaluators' raw) :=
  substituteEntries (demandFirst hsupplied) raw

end

section

variable {convert : Converter m τ} {convert' : Converter m' τ'}

theorem importEvaluators {imports : List (Import (Module τ))} {imports' : List (Import (Module τ'))}
    (haligned : Aligned l.Alike l.Listed ρ imports imports')
    (h : ∀ site ∈ imports, ∀ ρ module', l.Alike ρ site.module module' →
      l.Evaluates r ρ (evaluate convert site.module) (evaluate convert' module')) :
    l.Supplied r ρ (importEvaluators convert imports) (importEvaluators convert' imports') := by
  simp only [importEvaluators_eq_map]
  refine ⟨fun i => ?_, fun i evaluator evaluator' he he' => ?_⟩
  · simp only [List.getElem?_map, Option.map_eq_none_iff, haligned.none_iff]
  · rw [List.getElem?_map, Option.map_eq_some_iff] at he he'
    obtain ⟨site, hi, rfl⟩ := he
    obtain ⟨site', hi', rfl⟩ := he'
    have hmodule := haligned.modules i site site' hi hi'
    exact h site (List.mem_of_getElem? hi) (ρ.below i) site'.module hmodule

theorem descend {work : Module τ → m (Except Failure Unit × Module τ)}
    {work' : Module τ' → m' (Except Failure Unit × Module τ')}
    (h : ∀ ρ module module', l.Alike ρ module module' →
      r.Rel (l.Left ρ) (work module) (work' module'))
    (place : List Nat) {module : Module τ} {module' : Module τ'}
    (halike : l.Alike ρ module module') :
    r.Rel (l.Left ρ) (descend work place module) (descend work' (ρ.moved place) module') := by
  induction place generalizing ρ module module' with
  | nil => exact h ρ module module' halike
  | cons i place ih =>
    have haligned := l.aligned halike
    rw [Rearrangement.moved, Module.descend, Module.descend]
    cases hi : module.imports[i]? with
    | none =>
      rw [haligned.none_iff.2 hi]
      exact r.pure ⟨rfl, halike⟩
    | some site =>
      obtain ⟨site', hi', -⟩ := haligned.exists_site hi
      rw [hi']
      apply r.bind (ih (haligned.modules i site site' hi hi'))
      intro left left' hleft
      exact r.pure ⟨hleft.outcome, l.with_imports halike (haligned.store i hleft.alike)⟩

variable [LawfulMonad m] [LawfulMonad m'] (hconvert : l.Converts r convert convert')
include hconvert

/-- Evaluation does the same with modules that are alike. -/
theorem evaluate (module : Module τ) : ∀ ρ module', l.Alike ρ module module' →
    l.Evaluates r ρ (evaluate convert module) (evaluate convert' module') := by
  induction module using Module.induction with
  | step module ih =>
    intro ρ module' halike given
    have haligned := l.aligned halike
    have hsupplied := importEvaluators haligned ih
    obtain ⟨hpath, hparams, hevaluated, hraw⟩ := l.resembles halike
    rcases module with ⟨_, imports, _, _, ⟨_, typed⟩, diagnostics⟩
    rcases module' with ⟨path, imports', params, evaluated, ⟨raw, typed'⟩, diagnostics'⟩
    simp only at hpath hparams hevaluated hraw
    subst hpath hparams hevaluated hraw
    cases evaluated with
    | true =>
      simp only [Module.evaluate, if_true]
      exact r.pure ⟨rfl, halike⟩
    | false =>
      simp only [Module.evaluate, Bool.false_eq_true, if_false]
      apply r.bind (fillResource hsupplied raw imports imports' haligned)
      rintro ⟨result, after⟩ ⟨_, after'⟩ ⟨hresult, hafter⟩
      have hleft := l.with_imports halike hafter
      cases hresult with
      | error failure => exact r.pure ⟨rfl, hleft⟩
      | @ok filled _ hfilled =>
        subst hfilled
        -- The converter comes last, so that nothing depends on what it makes.
        apply r.bind (hconvert path filled)
        intro typed typed' htyped
        exact r.pure ⟨rfl, l.converted filled hleft htyped⟩

theorem evaluateImport {module : Module τ} {module' : Module τ'}
    (halike : l.Alike ρ module module') (given : Entries) (name : String) :
    r.Rel (l.Left ρ) (evaluateImport convert module given name)
      (evaluateImport convert' module' given name) := by
  have haligned := l.aligned halike
  have hsupplied := importEvaluators haligned fun site _ => evaluate hconvert site.module
  obtain ⟨hpath, hparams, -, -⟩ := l.resembles halike
  rcases module with ⟨_, imports, _, evaluated, resource, diagnostics⟩
  rcases module' with ⟨path, imports', params, evaluated', resource', diagnostics'⟩
  simp only at hpath hparams
  subst hpath hparams
  simp only [Module.evaluateImport, haligned.findIdx?, similarNames_congr haligned.mem_names]
  cases imports.findIdx? (·.name = name) with
  | none => exact r.pure ⟨rfl, halike⟩
  | some i =>
    apply r.bind (demandFirst hsupplied i imports imports' haligned)
    intro left left' hleft
    exact r.pure ⟨hleft.1.eq.symm, l.with_imports halike hleft.2⟩

/-- A call does the same on the module where it is found afterwards. -/
theorem call (call : Call) {module : Module τ} {module' : Module τ'}
    (halike : l.Alike ρ module module') :
    r.Rel (l.Left ρ) (call.run convert module) ((call.moved ρ).run convert' module') := by
  apply descend _ call.place halike
  intro ρ module module' halike
  simp only [Call.work, Call.moved]
  cases call.name with
  | none => exact evaluate hconvert module ρ module' halike call.given
  | some name => exact evaluateImport hconvert halike call.given name

theorem runCalls (calls : List Call) {module : Module τ} {module' : Module τ'}
    (halike : l.Alike ρ module module') :
    r.Rel (l.Left ρ) (runCalls convert calls module)
      (runCalls convert' (calls.map (Call.moved ρ)) module') := by
  induction calls generalizing module module' with
  | nil => exact r.pure ⟨rfl, halike⟩
  | cons call rest ih =>
    apply r.bind (Likeness.call hconvert call halike)
    rintro ⟨result, module⟩ ⟨_, module'⟩ ⟨houtcome, halike⟩
    apply r.bind (ih halike)
    rintro ⟨results, module⟩ ⟨_, module'⟩ ⟨houtcomes, halike⟩
    simp only at houtcome houtcomes
    subst houtcome houtcomes
    exact r.pure ⟨rfl, halike⟩

theorem evaluateAll (given : Entries) {modules : List (Module τ)} {modules' : List (Module τ')}
    (halike : List.Forall₂ (l.Alike ρ) modules modules') :
    r.failing.Rel (List.Forall₂ (l.Alike ρ)) (evaluateAll convert given modules)
      (evaluateAll convert' given modules') := by
  induction halike with
  | nil => exact r.failing.pure .nil
  | cons hmodule _ ih =>
    rw [Module.evaluateAll, Module.evaluateAll]
    apply r.failing.bind (Relator.lift (evaluate hconvert _ _ _ hmodule given))
    rintro ⟨result, left⟩ ⟨_, left'⟩ ⟨houtcome, halike⟩
    simp only at houtcome
    subst houtcome
    apply r.failing.bind (r.ofExcept (.refl _))
    intro _ _ _
    apply r.failing.bind ih
    intro _ _ hrest
    exact r.failing.pure (.cons halike hrest)

end

end Likeness

end ManifestModules.Module
