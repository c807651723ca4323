import ManifestModules.Failure
import Mathlib.Data.List.Forall2

/-!
# Relations between computations

A program that is written for any surroundings does the same in two of them, as far as a relation
tells that is respected by returning and by sequencing. It is enough to know such a relation for
computations without failures and without a state: both can be added.
-/

namespace ManifestModules

variable {m m' : Type → Type} [Monad m] [Monad m'] {C D α β γ δ : Type}

/-- A relation between the computations in two monads for each relation between their results. -/
structure Relator (m m' : Type → Type) [Monad m] [Monad m'] where
  Rel : ∀ {α β : Type}, (α → β → Prop) → m α → m' β → Prop
  pure : ∀ {α β : Type} {R : α → β → Prop} {a : α} {b : β}, R a b →
    Rel R (Pure.pure a) (Pure.pure b)
  bind : ∀ {α β γ δ : Type} {R : α → β → Prop} {S : γ → δ → Prop} {x : m α} {y : m' β}
    {f : α → m γ} {g : β → m' δ},
    Rel R x y → (∀ a b, R a b → Rel S (f a) (g b)) → Rel S (x >>= f) (y >>= g)

inductive SameOutcome (R : α → β → Prop) : Except Failure α → Except Failure β → Prop
  | ok {a : α} {b : β} (h : R a b) : SameOutcome R (.ok a) (.ok b)
  | error (e : Failure) : SameOutcome R (.error e) (.error e)

theorem SameOutcome.refl (r : Except Failure α) : SameOutcome Eq r r := by
  cases r with
  | ok a => exact .ok rfl
  | error e => exact .error e

theorem SameOutcome.eq {r r' : Except Failure α} (h : SameOutcome Eq r r') : r = r' := by
  cases h with
  | ok h => rw [h]
  | error e => rfl

namespace Relator

variable (r : Relator m m') {R : α → β → Prop} {S : γ → δ → Prop} {I : C → D → Prop}

def failing : Relator (ExceptT Failure m) (ExceptT Failure m') where
  Rel R x y := r.Rel (SameOutcome R) x.run y.run
  pure h := r.pure (.ok h)
  bind hx hf := by
    rw [ExceptT.run_bind, ExceptT.run_bind]
    apply r.bind hx
    intro result result' h
    cases h with
    | ok h => exact hf _ _ h
    | error e => exact r.pure (.error e)

def onState (I : C → D → Prop) : Relator (StateT C m) (StateT D m') where
  Rel R x y := ∀ c d, I c d →
    r.Rel (fun left left' => R left.1 left'.1 ∧ I left.2 left'.2) (x.run c) (y.run d)
  pure h c d hI := r.pure ⟨h, hI⟩
  bind hx hf c d hI := by
    rw [StateT.run_bind, StateT.run_bind]
    apply r.bind (hx c d hI)
    intro left left' h
    exact hf _ _ h.1 _ _ h.2

theorem throw (e : Failure) :
    r.failing.Rel R (MonadExcept.throw e) (MonadExcept.throw e) :=
  r.pure (.error e)

theorem ofExcept {x : Except Failure α} {y : Except Failure β} (h : SameOutcome R x y) :
    r.failing.Rel R (liftM x) (liftM y) := by
  cases h with
  | ok h => exact r.pure (.ok h)
  | error e => exact r.throw e

theorem get : (r.onState I).Rel I MonadState.get MonadState.get :=
  fun _ _ h => r.pure ⟨h, h⟩

theorem onState_modify {f : C → C} {g : D → D} (h : ∀ c d, I c d → I (f c) (g d)) :
    (r.onState I).Rel Eq (modify f) (modify g) :=
  fun c d hI => r.pure ⟨rfl, h c d hI⟩

variable {r} in
theorem liftState {x : m α} {y : m' β} (h : r.Rel R x y) :
    (r.onState I).Rel R (liftM x) (liftM y) := by
  intro c d hI
  change r.Rel _ (x >>= fun a => Pure.pure (a, c)) (y >>= fun b => Pure.pure (b, d))
  exact r.bind h fun _ _ hab => r.pure ⟨hab, hI⟩

section

variable {r} [LawfulMonad m] [LawfulMonad m']

theorem lift {x : m α} {y : m' β} (h : r.Rel R x y) : r.failing.Rel R (liftM x) (liftM y) := by
  change r.Rel (SameOutcome R) (Except.ok <$> x) (Except.ok <$> y)
  rw [map_eq_pure_bind, map_eq_pure_bind]
  exact r.bind h fun _ _ hab => r.pure (.ok hab)

theorem mapM {f : α → m γ} {g : β → m' δ} (h : ∀ a b, R a b → r.Rel S (f a) (g b)) {l : List α}
    {l' : List β} (hl : List.Forall₂ R l l') :
    r.Rel (List.Forall₂ S) (l.mapM f) (l'.mapM g) := by
  induction hl with
  | nil => exact r.pure .nil
  | cons hab _ ih =>
    rw [List.mapM_cons, List.mapM_cons]
    exact r.bind (h _ _ hab) fun _ _ hc => r.bind ih fun _ _ hcs => r.pure (.cons hc hcs)

end

end Relator

/-- A relation between computations with the same results. -/
structure Concord (m m' : Type → Type) [Monad m] [Monad m'] where
  Rel : ∀ {α : Type}, m α → m' α → Prop
  pure : ∀ {α : Type} (a : α), Rel (Pure.pure a) (Pure.pure a)
  bind : ∀ {α β : Type} {x : m α} {y : m' α} {f : α → m β} {g : α → m' β},
    Rel x y → (∀ a, Rel (f a) (g a)) → Rel (x >>= f) (y >>= g)

namespace Concord

variable (c : Concord m m')

def failing (ε : Type) : Concord (ExceptT ε m) (ExceptT ε m') where
  Rel x y := c.Rel x.run y.run
  pure {α} a := c.pure (Except.ok a : Except ε α)
  bind {_ β _ _ _ _} hx hf := by
    rw [ExceptT.run_bind, ExceptT.run_bind]
    apply c.bind hx
    intro result
    cases result with
    | ok a => exact hf a
    | error e => exact c.pure (Except.error e : Except ε β)

variable [LawfulMonad m] [LawfulMonad m']

/-- Computations have related results if both are what is left of computations that have the same
pairs of related results. -/
def relator : Relator m m' where
  Rel {α β} R x y := ∃ (z : m {p : α × β // R p.1 p.2}) (z' : m' {p : α × β // R p.1 p.2}),
    c.Rel z z' ∧ (·.1.1) <$> z = x ∧ (·.1.2) <$> z' = y
  pure h := ⟨Pure.pure ⟨(_, _), h⟩, Pure.pure ⟨(_, _), h⟩, c.pure _, by simp, by simp⟩
  bind := by
    rintro α β γ δ R S _ _ f g ⟨z, z', hz, rfl, rfl⟩ hf
    choose w w' hw hw₁ hw₂ using hf
    refine ⟨z >>= fun p => w _ _ p.2, z' >>= fun p => w' _ _ p.2,
      c.bind hz fun p => hw _ _ p.2, ?_, ?_⟩
    · simp [hw₁]
    · simp [hw₂]

variable {c}

theorem related {R : α → α → Prop} {x : m α} {y : m' α} (h : c.Rel x y) (hrefl : ∀ a, R a a) :
    c.relator.Rel R x y := by
  refine ⟨x >>= fun a => Pure.pure ⟨(a, a), hrefl a⟩, y >>= fun a => Pure.pure ⟨(a, a), hrefl a⟩,
    c.bind h fun a => c.pure _, ?_, ?_⟩
  · simp
  · simp

theorem of_related {R : α → α → Prop} {x : m α} {y : m' α} (h : c.relator.Rel R x y)
    (heq : ∀ a b, R a b → a = b) : c.Rel x y := by
  obtain ⟨z, z', hz, rfl, rfl⟩ := h
  have hsame : (fun p : {p : α × α // R p.1 p.2} => p.1.2) = fun p => p.1.1 :=
    funext fun p => (heq _ _ p.2).symm
  rw [hsame, map_eq_pure_bind, map_eq_pure_bind]
  exact c.bind hz fun p => c.pure _

theorem mapM {f : α → m β} {g : α → m' β} (h : ∀ a, c.Rel (f a) (g a)) (l : List α) :
    c.Rel (l.mapM f) (l.mapM g) := by
  induction l with
  | nil => exact c.pure []
  | cons a l ih =>
    rw [List.mapM_cons, List.mapM_cons]
    exact c.bind (h a) fun b => c.bind ih fun bs => c.pure (b :: bs)

end Concord

end ManifestModules
