import ManifestModules.Proofs.Template.Correspondence

/-!
# Substitution as a dialogue

A template asks for identifiers one after the other, and what it asks next may depend on the answers
so far. The dialogue of a template is finite, whoever answers it.
-/

namespace ManifestModules.Template

/-- A tree of questions: each of them goes on with every possible answer. -/
inductive Dialogue (α : Type) where
  | done (result : α)
  | ask (ident : String) (next : Value → Dialogue α)

namespace Dialogue

variable {α β : Type}

def bind (d : Dialogue α) (f : α → Dialogue β) : Dialogue β :=
  match d with
  | done a => f a
  | ask ident next => ask ident fun value => (next value).bind f

instance : Monad Dialogue where
  pure := done
  bind := bind

protected theorem id_map (d : Dialogue α) : id <$> d = d := by
  induction d with
  | done a => rfl
  | ask ident next ih => exact congrArg (ask ident) (funext ih)

protected theorem bind_assoc {γ : Type} (d : Dialogue α) (f : α → Dialogue β) (g : β → Dialogue γ) :
    d >>= f >>= g = d >>= fun a => f a >>= g := by
  induction d with
  | done a => rfl
  | ask ident next ih => exact congrArg (ask ident) (funext ih)

instance : LawfulMonad Dialogue :=
  .mk' Dialogue Dialogue.id_map (fun _ _ => rfl) Dialogue.bind_assoc

variable {m : Type → Type} [Monad m]

/-- A dialogue with a resolver that answers its questions. It ends with the first failure. -/
def answeredBy (resolve : Resolver m) : Dialogue (Except Failure α) → ExceptT Failure m α
  | done result => ExceptT.mk (pure result)
  | ask ident next => do
    let value ← resolve ident
    (next value).answeredBy resolve

def asking : Resolver Dialogue := fun ident =>
  ExceptT.mk (ask ident fun value => done (.ok value))

variable [LawfulMonad m] {resolve : Resolver m}

theorem answeredBy_bind (x : ExceptT Failure Dialogue α) (f : α → ExceptT Failure Dialogue β) :
    answeredBy resolve (x >>= f).run =
      answeredBy resolve x.run >>= fun a => answeredBy resolve (f a).run := by
  rw [ExceptT.run_bind]
  induction x.run with
  | done result =>
    apply ExceptT.ext
    rw [ExceptT.run_bind, answeredBy, ExceptT.run_mk, pure_bind]
    cases result <;> rfl
  | ask ident next ih =>
    change (resolve ident >>= fun value => answeredBy resolve (next value >>= _)) = _
    rw [bind_congr ih]
    exact (bind_assoc (resolve ident) _ _).symm

def correspondence (resolve : Resolver m) : Correspondence Dialogue m Unit where
  Rel _ x y := answeredBy resolve x.run = y ()
  pure _ := rfl
  bind hx hf := by
    rw [answeredBy_bind, hx]
    exact bind_congr hf
  fillMismatch _ _ _ _ := rfl
  spreadMismatch _ _ _ := rfl

theorem rel_asking (resolve : Resolver m) (ident : String) :
    (correspondence resolve).Rel [ident] (asking ident) fun _ => resolve ident :=
  bind_pure (resolve ident)

end Dialogue

def dialogue (templates : Entries) : Dialogue (Except Failure Entries) :=
  (substituteEntries Dialogue.asking templates).run

/-- To fill templates is to answer their questions. -/
theorem answeredBy_dialogue {m : Type → Type} [Monad m] [LawfulMonad m] (resolve : Resolver m)
    (templates : Entries) :
    (dialogue templates).answeredBy resolve = substituteEntries resolve templates :=
  (Dialogue.correspondence resolve).substituteEntries templates fun ident _ =>
    Dialogue.rel_asking resolve ident

/-- To fill one template is to answer its questions. -/
theorem answeredBy_substitute {m : Type → Type} [Monad m] [LawfulMonad m] (resolve : Resolver m)
    (template : Value) :
    (substitute Dialogue.asking template).run.answeredBy resolve = substitute resolve template :=
  (Dialogue.correspondence resolve).substitute template fun ident _ =>
    Dialogue.rel_asking resolve ident

end ManifestModules.Template
