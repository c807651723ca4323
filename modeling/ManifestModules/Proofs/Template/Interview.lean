import ManifestModules.Proofs.Template.Questions

/-!
# Substitution as an interview

Substitution asks its resolver the questions of the template in their order, each of them once. The
interview goes on as long as the answers fit, and the first answer that does not is the failure of
the substitution. The text in an answer is never read.
-/

namespace ManifestModules.Template

variable {α β σ : Type}

structure Exchange where
  ident : String
  answer : Except Failure Value

def recorded (resolve : Resolver (StateM σ)) : Resolver (StateT (List Exchange) (StateM σ)) :=
  fun ident => ExceptT.mk fun past => do
    let answer ← (resolve ident).run
    return (answer, past ++ [⟨ident, answer⟩])

/-- A failure that comes from an answer: it is the answer, or the answer does not fit its place. -/
def Question.Fails (question : Question) (answer : Except Failure Value) (failure : Failure) :
    Prop :=
  answer = .error failure ∨
    ∃ value, answer = .ok value ∧ question.mismatch? value = some failure

/-- What is to be said about the calls for a list of questions. -/
structure Conducted (asked : List Question) (calls : List Exchange) (result : Except Failure α) :
    Prop where
  inOrder : calls.map (·.ident) <+: asked.map (·.ident)
  complete : ∀ a, result = .ok a → calls.map (·.ident) = asked.map (·.ident)
  stopped : ∀ failure, result = .error failure → ∃ past last question,
    calls = past ++ [last] ∧ asked[past.length]? = some question ∧
      question.Fails last.answer failure

inductive Interview : List Question → List Exchange → Except Failure α → Prop where
  | done (a : α) : Interview [] [] (.ok a)
  | fit {question : Question} {asked : List Question} {value : Value} {calls : List Exchange}
      {result : Except Failure α} (fits : question.mismatch? value = none)
      (later : Interview asked calls result) :
      Interview (question :: asked) (⟨question.ident, .ok value⟩ :: calls) result
  | failed {question : Question} {answer : Except Failure Value} {failure : Failure}
      (fails : question.Fails answer failure) (asked : List Question) :
      Interview (question :: asked) [⟨question.ident, answer⟩] (.error failure)

theorem Interview.conducted {asked : List Question} {calls : List Exchange}
    {result : Except Failure α} (h : Interview asked calls result) :
    Conducted asked calls result := by
  induction h with
  | done a => exact ⟨by simp, by simp, by simp⟩
  | fit fits _ ih =>
    constructor
    · simpa using ih.inOrder
    · intro a ha
      simpa using ih.complete a ha
    · intro failure hfailure
      obtain ⟨past, last, question, hcalls, hquestion, hfails⟩ := ih.stopped failure hfailure
      exact ⟨⟨_, _⟩ :: past, last, question, by rw [hcalls]; rfl, hquestion, hfails⟩
  | failed fails asked =>
    constructor
    · simp
    · simp
    · rintro _ ⟨⟩
      exact ⟨[], _, _, rfl, rfl, fails⟩

/-! ## Dialogues along a list of questions -/

/-- A dialogue asks the questions of a list one after the other, until an answer does not fit. -/
inductive Poses : List Question → Dialogue (Except Failure α) → Prop where
  | done (a : α) : Poses [] (.done (.ok a))
  | ask {question : Question} {later : List Question} {next : Value → Dialogue (Except Failure α)}
      (fit : ∀ value, question.mismatch? value = none → Poses later (next value))
      (unfit : ∀ value failure, question.mismatch? value = some failure →
        next value = .done (.error failure)) :
      Poses (question :: later) (.ask question.ident next)

namespace Poses

theorem bind {asked later : List Question} {x : ExceptT Failure Dialogue α}
    {f : α → ExceptT Failure Dialogue β} (hx : Poses asked x.run)
    (hf : ∀ a, Poses later (f a).run) : Poses (asked ++ later) (x >>= f).run := by
  rw [ExceptT.run_bind]
  generalize x.run = d at hx
  induction hx with
  | done a => exact hf a
  | ask fit unfit ih =>
    apply ask
    · intro value hvalue
      exact ih value hvalue
    · intro value failure hfailure
      rw [unfit value failure hfailure]
      rfl

theorem bind_pure {asked : List Question} {x : ExceptT Failure Dialogue α} (f : α → β)
    (hx : Poses asked x.run) : Poses asked (x >>= fun a => pure (f a)).run := by
  have hbind := hx.bind fun a => (done (f a) : Poses [] (pure (f a) : ExceptT _ _ _).run)
  rwa [List.append_nil] at hbind

theorem map {asked : List Question} {x : ExceptT Failure Dialogue α} (f : α → β)
    (hx : Poses asked x.run) : Poses asked (f <$> x).run := by
  rw [map_eq_pure_bind]
  exact hx.bind_pure f

/-- A question that is asked first. -/
theorem asking (question : Question) {later : List Question}
    {f : Value → ExceptT Failure Dialogue α}
    (fit : ∀ value, question.mismatch? value = none → Poses later (f value).run)
    (unfit : ∀ value failure, question.mismatch? value = some failure → f value = throw failure) :
    Poses (question :: later) (Dialogue.asking question.ident >>= f).run := by
  apply ask
  · exact fit
  · intro value failure hfailure
    exact congrArg ExceptT.run (unfit value failure hfailure)

end Poses

theorem poses_fillPieces (text : String) (parts : List Piece) :
    Poses (parts.filterMap (Piece.question? text))
      (fillPieces Dialogue.asking text parts).run := by
  induction parts with
  | nil => exact .done ""
  | cons part rest ih =>
    cases part with
    | char c => exact ih.bind_pure (String.ofList [c] ++ ·)
    | hole name =>
      apply Poses.asking ⟨String.ofList name, .part text⟩
      · intro value hvalue
        cases value with
        | string s => exact ih.bind_pure (s ++ ·)
        | number n => exact ih.bind_pure (n.label ++ ·)
        | _ => simp [Question.mismatch?] at hvalue
      · intro value failure hfailure
        cases value <;> simp_all [Question.mismatch?, fillText?]

theorem poses_substituteString (s : String) :
    Poses (textQuestions s) (substituteString Dialogue.asking s).run := by
  rw [textQuestions, substituteString]
  cases hs : expandIdent? s with
  | some ident =>
    apply Poses.ask
    · intro value _
      exact .done value
    · intro value failure hfailure
      simp [Question.mismatch?] at hfailure
  | none =>
    by_cases hholes : (pieces s).any Piece.isHole
    · simp only [hholes, if_true]
      exact (poses_fillPieces s (pieces s)).map Value.string
    · have hnone : (pieces s).filterMap (Piece.question? s) = [] := by
        rw [List.filterMap_eq_nil_iff]
        intro piece hpiece
        obtain ⟨c, rfl⟩ := exists_char_of_not_isHole hholes hpiece
        rfl
      simp only [hholes, hnone]
      exact .done (Value.string s)

mutual

theorem poses_substitute : (value : Value) →
    Poses (questions value) (substitute Dialogue.asking value).run
  | .null => by simp only [questions, substitute]; exact .done _
  | .bool _ => by simp only [questions, substitute]; exact .done _
  | .number _ => by simp only [questions, substitute]; exact .done _
  | .string s => by
    simp only [questions, substitute]
    exact poses_substituteString s
  | .list items => by
    simp only [questions, substitute]
    exact (poses_substituteItems items).map Value.list
  | .map entries => by
    simp only [questions, substitute]
    exact (poses_substituteEntries entries).map Value.map

theorem poses_substituteItems : (items : List Value) →
    Poses (itemQuestions items) (substituteItems Dialogue.asking items).run
  | [] => by simp only [itemQuestions, substituteItems]; exact .done []
  | item :: rest => by
    have following (front : List Value) := (poses_substituteItems rest).bind_pure (front ++ ·)
    simp only [itemQuestions, substituteItems]
    cases hs : spreadOf? item with
    | some ident =>
      apply Poses.asking ⟨ident, .spread⟩
      · intro value hvalue
        cases value with
        | list items => exact following items
        | _ => simp [Question.mismatch?] at hvalue
      · intro value failure hfailure
        cases value <;> simp_all [Question.mismatch?, spreadItems]
    | none =>
      simp only [pure_bind]
      exact (poses_substitute item).bind fun filled => following [filled]

theorem poses_substituteEntries : (entries : List (String × Value)) →
    Poses (entryQuestions entries) (substituteEntries Dialogue.asking entries).run
  | [] => by simp only [entryQuestions, substituteEntries]; exact .done []
  | (key, value) :: rest => by
    simp only [entryQuestions, substituteEntries]
    exact (poses_substitute value).bind fun filled =>
      (poses_substituteEntries rest).bind_pure ((key, filled) :: ·)

end

/-! ## Resolvers that answer -/

section Run

variable (resolve : Resolver (StateM σ))

theorem exec_recorded {ident : String} {answer : Except Failure Value} {s s' : σ}
    (h : (resolve ident).run.run s = (answer, s')) (past : List Exchange) :
    exec (recorded resolve ident) past s = ⟨answer, past ++ [⟨ident, answer⟩], s'⟩ := by
  change (⟨((resolve ident).run.run s).1, past ++ [⟨ident, ((resolve ident).run.run s).1⟩],
    ((resolve ident).run.run s).2⟩ : Trace _ _ _) = _
  rw [h]

/-- To write the calls down changes nothing else. -/
theorem answeredBy_recorded (d : Dialogue (Except Failure α)) (past : List Exchange) (s : σ) :
    let trace := exec (d.answeredBy (recorded resolve)) past s
    (d.answeredBy resolve).run.run s = (trace.result, trace.world) := by
  induction d generalizing past s with
  | done result => rfl
  | ask ident next ih =>
    rcases hcall : (resolve ident).run.run s with ⟨answer, s'⟩
    have hrecorded := exec_recorded resolve hcall past
    simp only [Dialogue.answeredBy, ExceptT.run_bind, StateT.run_bind, hcall]
    cases answer with
    | error failure =>
      rw [exec_bind_error hrecorded]
      rfl
    | ok value =>
      rw [exec_bind_ok hrecorded]
      exact ih value _ s'

/-- The calls of a dialogue. -/
theorem Poses.interview {asked : List Question} {d : Dialogue (Except Failure α)}
    (h : Poses asked d) (past : List Exchange) (s : σ) :
    let trace := exec (d.answeredBy (recorded resolve)) past s
    ∃ calls, trace.state = past ++ calls ∧ Interview asked calls trace.result := by
  induction h generalizing past s with
  | done a => exact ⟨[], (List.append_nil past).symm, .done a⟩
  | @ask question later next fit unfit ih =>
    rcases hcall : (resolve question.ident).run.run s with ⟨answer, s'⟩
    have hrecorded := exec_recorded resolve hcall past
    simp only [Dialogue.answeredBy]
    cases answer with
    | error failure =>
      rw [exec_bind_error hrecorded]
      exact ⟨_, rfl, .failed (.inl rfl) later⟩
    | ok value =>
      rw [exec_bind_ok hrecorded]
      -- the value may end the dialogue, but what is asked next does not depend on it
      cases hvalue : question.mismatch? value with
      | none =>
        obtain ⟨calls, hcalls, hinterview⟩ :=
          ih value hvalue (past ++ [⟨question.ident, .ok value⟩]) s'
        exact ⟨_ :: calls, by simp [hcalls], .fit hvalue hinterview⟩
      | some failure =>
        rw [unfit value failure hvalue]
        exact ⟨_, rfl, .failed (.inr ⟨value, rfl, hvalue⟩) later⟩

end Run

/-- A template determines its questions, whoever answers them. The calls of a substitution are these
questions from the first one on: all of them if it succeeds, and otherwise those up to an answer
that is or causes the failure. -/
theorem substitute_asks {template : Value} (h : Ordered template) :
    ∃ asked, (∀ other, Asks template other ↔ other = asked) ∧
      ∀ {σ : Type} (resolve : Resolver (StateM σ)) (s : σ),
        let trace := exec (substitute (recorded resolve) template) [] s
        (substitute resolve template).run.run s = (trace.result, trace.world) ∧
          Conducted asked trace.state trace.result := by
  refine ⟨questions template, fun other => asks_iff h, ?_⟩
  intro σ resolve s
  have hplain := answeredBy_recorded resolve (substitute Dialogue.asking template).run [] s
  have hcalls := (poses_substitute template).interview resolve [] s
  rw [answeredBy_substitute] at hplain hcalls
  rw [answeredBy_substitute] at hplain
  obtain ⟨calls, hcalls, hinterview⟩ := hcalls
  exact ⟨hplain, hcalls ▸ hinterview.conducted⟩

def counting : Resolver (StateM Nat) := fun ident => do
  let count ← get
  set (count + 1)
  match ident with
  | "hosts" => return .list [.number (.integer count)]
  | _ => return .string "${hosts}"

def greeting : Value :=
  .map [("from", .string "${host}"), ("to", .list [.string "${hosts...}", .string "${a}, ${b}"])]

theorem substitute_greeting_asks : Ordered greeting ∧
    ∃ asked, Asks greeting asked ∧ asked.map (·.ident) = ["host", "hosts", "a", "b"] := by
  have hordered : Ordered greeting := by
    simp only [greeting, Ordered, ItemsOrdered, EntriesOrdered, Table.Sorted]
    decide
  obtain ⟨asked, hasks, hrun⟩ := substitute_asks hordered
  obtain ⟨-, hconducted⟩ := hrun counting 0
  have hok : (exec (substitute (recorded counting) greeting) [] 0).result.isOk := by
    decide +kernel
  have hcalls : (exec (substitute (recorded counting) greeting) [] 0).state.map (·.ident) =
      ["host", "hosts", "a", "b"] := by decide +kernel
  cases hresult : (exec (substitute (recorded counting) greeting) [] 0).result with
  | error failure =>
    rw [hresult] at hok
    cases hok
  | ok value =>
    have hcomplete := hconducted.complete value hresult
    exact ⟨hordered, asked, (hasks asked).2 rfl, hcomplete.symm.trans hcalls⟩

end ManifestModules.Template
