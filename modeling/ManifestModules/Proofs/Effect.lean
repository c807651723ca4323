import ManifestModules.Failure

/-!
# Runs of computations that may fail

Loading and evaluating are computations over a state of their own, which is kept when they fail,
and over the state of their surroundings. A run of such a computation is a plain function.
-/

namespace ManifestModules

section

variable {ε α β : Type} {x : Except ε α} {f : α → Except ε β}

theorem bind_eq_ok {b : β} : x >>= f = .ok b ↔ ∃ a, x = .ok a ∧ f a = .ok b := by
  cases x <;> simp [bind, Except.bind]

theorem bind_eq_error {e : ε} :
    x >>= f = .error e ↔ x = .error e ∨ ∃ a, x = .ok a ∧ f a = .error e := by
  cases x <;> simp [bind, Except.bind]

/-- What comes first in a list with a property, after others with another one, is its head or comes
first in its tail. -/
theorem exists_first_cons {P : α → Prop} {Q : List α → α → Prop} {first : α} {rest : List α} :
    (∃ before a after, first :: rest = before ++ a :: after ∧ (∀ b ∈ before, P b) ∧ Q before a) ↔
      Q [] first ∨ P first ∧ ∃ before a after, rest = before ++ a :: after ∧
        (∀ b ∈ before, P b) ∧ Q (first :: before) a := by
  constructor
  · rintro ⟨before, a, after, hsplit, hbefore, ha⟩
    cases before with
    | nil =>
      cases hsplit
      exact .inl ha
    | cons _ before =>
      cases hsplit
      obtain ⟨hfirst, hbefore⟩ := List.forall_mem_cons.1 hbefore
      exact .inr ⟨hfirst, before, a, after, rfl, hbefore, ha⟩
  · rintro (hfirst | ⟨hfirst, before, a, after, rfl, hbefore, ha⟩)
    · exact ⟨[], first, rest, rfl, by simp, hfirst⟩
    · exact ⟨first :: before, a, after, rfl, List.forall_mem_cons.2 ⟨hfirst, hbefore⟩, ha⟩

end

variable {C D σ α β : Type}

abbrev Effect (C σ : Type) := ExceptT Failure (StateT C (StateM σ))

/-- What a run leaves behind; the states are there also if it fails. -/
structure Trace (C σ α : Type) where
  result : Except Failure α
  state : C
  world : σ

def exec (x : Effect C σ α) (c : C) (s : σ) : Trace C σ α :=
  let left := (x.run.run c).run s
  ⟨left.1.1, left.1.2, left.2⟩

theorem run_of_exec {x : Effect C σ α} {c c' : C} {s s' : σ} {r : Except Failure α}
    (h : exec x c s = ⟨r, c', s'⟩) : (x.run.run c).run s = ((r, c'), s') := by
  simp only [exec, Trace.mk.injEq] at h
  obtain ⟨hr, hc, hs⟩ := h
  rw [← hr, ← hc, ← hs]
  rfl

@[simp] theorem exec_pure (a : α) (c : C) (s : σ) :
    exec (pure a : Effect C σ α) c s = ⟨.ok a, c, s⟩ := rfl

@[simp] theorem exec_throw (e : Failure) (c : C) (s : σ) :
    exec (throw e : Effect C σ α) c s = ⟨.error e, c, s⟩ := rfl

@[simp] theorem exec_get (c : C) (s : σ) : exec (get : Effect C σ C) c s = ⟨.ok c, c, s⟩ := rfl

theorem exec_bind_ok {x : Effect C σ α} {f : α → Effect C σ β} {c c' : C} {s s' : σ} {a : α}
    (h : exec x c s = ⟨.ok a, c', s'⟩) : exec (x >>= f) c s = exec (f a) c' s' := by
  simp only [exec, ExceptT.run_bind, StateT.run_bind, run_of_exec h]
  rfl

theorem exec_bind_error {x : Effect C σ α} {f : α → Effect C σ β} {c c' : C} {s s' : σ}
    {e : Failure} (h : exec x c s = ⟨.error e, c', s'⟩) :
    exec (x >>= f) c s = ⟨.error e, c', s'⟩ := by
  simp only [exec, ExceptT.run_bind, StateT.run_bind, run_of_exec h]
  rfl

theorem exec_liftM (r : Except Failure α) (c : C) (s : σ) :
    exec (liftM r : Effect C σ α) c s = ⟨r, c, s⟩ := by
  cases r <;> rfl

theorem exec_lift {x : StateT C (StateM σ) α} {c c' : C} {s s' : σ} {a : α}
    (h : (x.run c).run s = ((a, c'), s')) :
    exec (liftM x : Effect C σ α) c s = ⟨.ok a, c', s'⟩ := by
  change (⟨.ok ((x.run c).run s).1.1, ((x.run c).run s).1.2, ((x.run c).run s).2⟩ :
    Trace C σ α) = _
  rw [h]

/-- Whenever a computation succeeds, its result has a property. -/
def Yields (x : Effect C σ α) (P : α → Prop) : Prop :=
  ∀ c s a, (exec x c s).result = .ok a → P a

namespace Yields

variable {x : Effect C σ α} {P : α → Prop} {Q : β → Prop}

theorem trivial (x : Effect C σ α) : Yields x fun _ => True := fun _ _ _ _ => True.intro

theorem pure {a : α} (h : P a) : Yields (Pure.pure a : Effect C σ α) P := by
  rintro c s _ ⟨⟩
  exact h

theorem throw (e : Failure) : Yields (MonadExcept.throw e : Effect C σ α) P := by
  rintro c s _ ⟨⟩

theorem ofExcept {r : Except Failure α} (h : ∀ a, r = .ok a → P a) :
    Yields (liftM r : Effect C σ α) P := by
  intro c s a ha
  rw [exec_liftM] at ha
  exact h a ha

theorem bind {f : α → Effect C σ β} (hx : Yields x P) (hf : ∀ a, P a → Yields (f a) Q) :
    Yields (x >>= f) Q := by
  intro c s b hb
  rcases hrun : exec x c s with ⟨r, c', s'⟩
  cases r with
  | error e =>
    rw [exec_bind_error hrun] at hb
    cases hb
  | ok a =>
    rw [exec_bind_ok hrun] at hb
    exact hf a (hx c s a (by rw [hrun])) c' s' b hb

theorem mapM {f : α → Effect C σ β} (hf : ∀ a, Yields (f a) Q) (l : List α) :
    Yields (l.mapM f) fun bs => ∀ b ∈ bs, Q b := by
  induction l with
  | nil => exact pure (by simp)
  | cons a l ih =>
    rw [List.mapM_cons]
    refine bind (hf a) fun b hb => bind ih fun bs hbs => pure ?_
    intro b' hb'
    rcases List.mem_cons.1 hb' with rfl | hmem
    · exact hb
    · exact hbs b' hmem

end Yields

/-- From related states two computations have the same result and do the same to their surroundings,
and the states that they leave are related. -/
def Matched (I : C → D → Prop) (x : Effect C σ α) (y : Effect D σ α) : Prop :=
  ∀ c d s, I c d → ∃ r c' d' s', I c' d' ∧ exec x c s = ⟨r, c', s'⟩ ∧ exec y d s = ⟨r, d', s'⟩

namespace Matched

variable {I : C → D → Prop} {x : Effect C σ α} {y : Effect D σ α}

theorem pure (a : α) : Matched I (Pure.pure a : Effect C σ α) (Pure.pure a : Effect D σ α) :=
  fun c d s h => ⟨.ok a, c, d, s, h, rfl, rfl⟩

theorem throw (e : Failure) :
    Matched I (MonadExcept.throw e : Effect C σ α) (MonadExcept.throw e : Effect D σ α) :=
  fun c d s h => ⟨.error e, c, d, s, h, rfl, rfl⟩

theorem bind {f : α → Effect C σ β} {g : α → Effect D σ β} (hx : Matched I x y)
    (hf : ∀ a, Matched I (f a) (g a)) : Matched I (x >>= f) (y >>= g) := by
  intro c d s h
  obtain ⟨r, c', d', s', h', hrun, hrun'⟩ := hx c d s h
  cases r with
  | error e => exact ⟨.error e, c', d', s', h', exec_bind_error hrun, exec_bind_error hrun'⟩
  | ok a =>
    rw [exec_bind_ok hrun, exec_bind_ok hrun']
    exact hf a c' d' s' h'

end Matched

/-- Without effects, one computation after another is one result after another. -/
theorem run_bind_eq {ε : Type} (x : ExceptT ε Id α) (f : α → ExceptT ε Id β) :
    (x >>= f).run.run = x.run.run >>= fun a => (f a).run.run := by
  rw [ExceptT.run_bind, Id.run_bind]
  cases x.run.run <;> rfl

namespace Module

def value (x : ExceptT Failure Id α) : Except Failure α :=
  x.run.run

theorem value_pure (a : α) : value (pure a) = .ok a := rfl

theorem value_throw (e : Failure) : value (throw e : ExceptT Failure Id α) = .error e := rfl

theorem value_bind (x : ExceptT Failure Id α) (f : α → ExceptT Failure Id β) :
    value (x >>= f) = value x >>= fun a => value (f a) :=
  run_bind_eq x f

theorem value_bind_ok {x : ExceptT Failure Id α} {f : α → ExceptT Failure Id β} {a : α}
    (h : value x = .ok a) : value (x >>= f) = value (f a) := by
  rw [value_bind, h]
  rfl

theorem value_bind_error {x : ExceptT Failure Id α} {f : α → ExceptT Failure Id β} {e : Failure}
    (h : value x = .error e) : value (x >>= f) = .error e := by
  rw [value_bind, h]
  rfl

theorem value_bind_eq_ok {x : ExceptT Failure Id α} {f : α → ExceptT Failure Id β} {b : β} :
    value (x >>= f) = .ok b ↔ ∃ a, value x = .ok a ∧ value (f a) = .ok b := by
  rw [value_bind, bind_eq_ok]

theorem value_pure_eq_ok {a b : α} : value (pure a) = .ok b ↔ a = b := by
  rw [value_pure, Except.ok.injEq]

theorem value_liftM (r : Except Failure α) :
    value (liftM r : ExceptT Failure Id α) = r := by
  cases r <;> rfl

end Module

end ManifestModules
