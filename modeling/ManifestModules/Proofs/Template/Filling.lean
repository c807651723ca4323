import ManifestModules.Proofs.Template.Interview
import ManifestModules.Proofs.Template.Occurrences

/-!
# What filling changes in a text

A text that is not one hole is filled by asking for each of its holes, from left to right, and by
putting the text of the answer in the place of the hole. All else stays where it was. To answer with
the holes themselves therefore changes nothing in a whole template, as long as it has no spread.
-/

namespace ManifestModules.Template

variable {σ : Type}

def Answers (resolve : Resolver (StateM σ)) (P : String → Value → Prop) : Prop :=
  ∀ ident state, ∃ value state', (resolve ident).run.run state = (.ok value, state') ∧ P ident value

inductive Textual : Value → Prop where
  | string (s : String) : Textual (.string s)
  | number (n : Number) : Textual (.number n)

def Exchange.Gives (call : Exchange) (text : String) : Prop :=
  ∃ value, call.answer = .ok value ∧ fillText? value = some text

/-- The holes are asked for in turn, and each is replaced by the text of its answer. -/
structure Filled (s : String) (holes : List Occurrence) (calls : List Exchange)
    (result : Except Failure Value) : Prop where
  inTurn : calls.map (·.ident) = holes.map fun hole => String.ofList hole.name
  replaced : ∃ texts, List.Forall₂ Exchange.Gives calls texts ∧
    result = .ok (.string (String.ofList (refill s.toList 0 (holes.zip (texts.map String.toList)))))

theorem Textual.exists_fillText? {value : Value} (h : Textual value) :
    ∃ text, fillText? value = some text := by
  cases h with
  | string s => exact ⟨s, rfl⟩
  | number n => exact ⟨n.label, rfl⟩

/-- The pieces of a text are filled. -/
theorem exec_fillPieces {resolve : Resolver (StateM σ)}
    (h : Answers resolve fun _ value => Textual value) (template : String) (cs : List Char)
    (past : List Exchange) (state : σ) :
    let holes := occurrences (piecesFrom 0 cs)
    ∃ calls texts state', calls.map (·.ident) = holes.map (fun hole => String.ofList hole.name) ∧
      List.Forall₂ Exchange.Gives calls texts ∧
      exec (fillPieces (recorded resolve) template (piecesFrom 0 cs)) past state =
        ⟨.ok (String.ofList (refill cs 0 (holes.zip (texts.map String.toList)))), past ++ calls,
          state'⟩ := by
  induction cs using reading_induction generalizing past state with
  | nil => exact ⟨[], [], state, rfl, .nil, by simp [piecesFrom, fillPieces, refill]⟩
  | hole name rest plain ih =>
    rw [piecesFrom_hole plain]
    obtain ⟨value, state', hcall, htextual⟩ := h (String.ofList name) state
    obtain ⟨text, htext⟩ := htextual.exists_fillText?
    have hrecorded := exec_recorded resolve hcall past
    obtain ⟨calls, texts, state'', hidents, hgives, hrun⟩ :=
      ih (past ++ [⟨String.ofList name, .ok value⟩]) state'
    refine ⟨⟨String.ofList name, .ok value⟩ :: calls, text :: texts, state'', ?_,
      .cons ⟨value, rfl, htext⟩ hgives, ?_⟩
    · simp [occurrences, hidents]
    · rw [fillPieces, exec_bind_ok hrecorded]
      simp only [htext]
      rw [exec_bind_ok hrun, exec_pure, occurrences, List.map_cons, List.zip_cons_cons,
        List.zip_map_left, refill_hole, String.ofList_append, String.ofList_toList]
      simp
  | char c rest noHole ih =>
    rw [piecesFrom_char noHole]
    obtain ⟨calls, texts, state', hidents, hgives, hrun⟩ := ih past state
    refine ⟨calls, texts, state', ?_, hgives, ?_⟩
    · simpa [occurrences, Function.comp_def] using hidents
    · rw [fillPieces, exec_bind_ok hrun, exec_pure, occurrences, List.zip_map_left, refill_char,
        ← String.ofList_append, List.singleton_append]

theorem any_isHole (parts : List Piece) :
    parts.any Piece.isHole = true ↔ occurrences parts ≠ [] := by
  induction parts with
  | nil => simp [occurrences]
  | cons part rest ih => cases part <;> simp_all [occurrences, Piece.isHole]

theorem whole_in {s : String} {name : List Char} (plain : Plain name)
    (whole : s.toList = bracketed name) : Occurrence.In ⟨0, name⟩ s.toList :=
  ⟨plain, [], [], by simp [whole], rfl⟩

/-- A text without holes stays, and nothing is asked. -/
theorem substitute_of_no_hole {m : Type → Type} [Monad m] (resolve : Resolver m) {s : String}
    (h : ∀ hole : Occurrence, ¬ hole.In s.toList) :
    substitute resolve (.string s) = pure (.string s) := by
  have hwhole : expandIdent? s = none :=
    expandIdent?_eq_none.2 fun name plain whole => h _ (whole_in plain whole)
  have hnone : occurrences (pieces s) = [] :=
    List.eq_nil_iff_forall_not_mem.2 fun hole hmem => h hole (mem_occurrences.1 hmem)
  have hholes : ¬ (pieces s).any Piece.isHole := mt (any_isHole _).1 (not_not_intro hnone)
  simp only [substitute, substituteString, hwhole, hholes]
  rfl

/-- A text that is not one hole is filled. -/
theorem exec_substituteText {resolve : Resolver (StateM σ)}
    (h : Answers resolve fun _ value => Textual value) {s : String}
    (hs : ∀ name, Plain name → s.toList ≠ bracketed name) (state : σ) :
    let trace := exec (substitute (recorded resolve) (.string s)) [] state
    Filled s (occurrences (pieces s)) trace.state trace.result := by
  obtain ⟨calls, texts, state', hidents, hgives, hrun⟩ := exec_fillPieces h s s.toList [] state
  simp only [substitute, substituteString, expandIdent?_eq_none.2 hs]
  by_cases hholes : (pieces s).any Piece.isHole
  · simp only [hholes, if_true, map_eq_pure_bind]
    rw [pieces, exec_bind_ok hrun]
    exact ⟨hidents, texts, hgives, rfl⟩
  · have hnone : occurrences (pieces s) = [] := of_not_not (mt (any_isHole _).2 hholes)
    simp only [hholes, hnone]
    exact ⟨rfl, [], .nil, by simp [refill]⟩

/-! ## Answers that put the holes back -/

def IsSpread (item : Value) : Prop :=
  ∃ s name, item = .string s ∧ Plain name ∧ s.toList = bracketed (name ++ dots)

mutual

/-- No list in the template has a spread. -/
def Spreadless : Value → Prop
  | .list items => ItemsSpreadless items
  | .map entries => EntriesSpreadless entries
  | .null | .bool _ | .number _ | .string _ => True

def ItemsSpreadless : List Value → Prop
  | [] => True
  | item :: rest => ¬ IsSpread item ∧ Spreadless item ∧ ItemsSpreadless rest

def EntriesSpreadless : List (String × Value) → Prop
  | [] => True
  | (_, value) :: rest => Spreadless value ∧ EntriesSpreadless rest

end

def Results {α : Type} (x : ExceptT Failure (StateM σ) α) (a : α) : Prop :=
  ∀ state, ∃ state', x.run.run state = (.ok a, state')

namespace Results

variable {α β : Type} {x : ExceptT Failure (StateM σ) α} {a : α}

theorem pure (a : α) : Results (Pure.pure a : ExceptT Failure (StateM σ) α) a :=
  fun state => ⟨state, rfl⟩

theorem bind {f : α → ExceptT Failure (StateM σ) β} {b : β} (hx : Results x a)
    (hf : Results (f a) b) : Results (x >>= f) b := by
  intro state
  obtain ⟨state', hrun⟩ := hx state
  obtain ⟨state'', hrun'⟩ := hf state'
  refine ⟨state'', ?_⟩
  rw [ExceptT.run_bind, StateT.run_bind, hrun]
  exact hrun'

theorem map (f : α → β) (hx : Results x a) : Results (f <$> x) (f a) := by
  rw [map_eq_pure_bind]
  exact hx.bind (pure (f a))

end Results

/-- Each question is answered by the text of its hole. -/
def Echoes (resolve : Resolver (StateM σ)) : Prop :=
  Answers resolve fun ident value => value = .string (String.ofList (bracketed ident.toList))

section

variable {resolve : Resolver (StateM σ)}

theorem Echoes.results (h : Echoes resolve) (ident : String) :
    Results (resolve ident) (.string (String.ofList (bracketed ident.toList))) := by
  intro state
  obtain ⟨value, state', hrun, rfl⟩ := h ident state
  exact ⟨state', hrun⟩

theorem Echoes.fillPieces (h : Echoes resolve) (template : String) (cs : List Char) :
    Results (Template.fillPieces resolve template (piecesFrom 0 cs)) (String.ofList cs) := by
  induction cs using reading_induction with
  | nil => exact .pure ""
  | hole name rest plain ih =>
    rw [piecesFrom_hole plain, String.ofList_append]
    have hfirst := h.results (String.ofList name)
    rw [String.toList_ofList] at hfirst
    exact hfirst.bind (ih.bind (.pure _))
  | char c rest noHole ih =>
    have hcons : String.ofList (c :: rest) = String.ofList [c] ++ String.ofList rest := by
      rw [← String.ofList_append, List.singleton_append]
    rw [piecesFrom_char noHole, hcons]
    exact ih.bind (.pure _)

theorem Echoes.substituteString (h : Echoes resolve) (s : String) :
    Results (Template.substituteString resolve s) (.string s) := by
  rw [Template.substituteString]
  cases hs : expandIdent? s with
  | some ident =>
    have hwhole := (expandIdent?_eq_some.1 hs).2
    have hresult := h.results ident
    rwa [← hwhole, String.ofList_toList] at hresult
  | none =>
    by_cases hholes : (pieces s).any Piece.isHole
    · have hfilled : Results (Template.fillPieces resolve s (pieces s)) s := by
        simpa only [String.ofList_toList, pieces] using h.fillPieces s s.toList
      simpa only [hholes, if_true] using hfilled.map Value.string
    · simpa only [hholes] using .pure (Value.string s)

mutual

theorem Echoes.substitute (h : Echoes resolve) : (template : Value) → Spreadless template →
    Results (Template.substitute resolve template) template
  | .null, _ => by simp only [Template.substitute]; exact .pure _
  | .bool _, _ => by simp only [Template.substitute]; exact .pure _
  | .number _, _ => by simp only [Template.substitute]; exact .pure _
  | .string s, _ => by
    simp only [Template.substitute]
    exact h.substituteString s
  | .list items, hspread => by
    simp only [Template.substitute, Spreadless] at hspread ⊢
    exact (h.substituteItems items hspread).map Value.list
  | .map entries, hspread => by
    simp only [Template.substitute, Spreadless] at hspread ⊢
    exact (h.substituteEntries entries hspread).map Value.map

theorem Echoes.substituteItems (h : Echoes resolve) : (items : List Value) → ItemsSpreadless items →
    Results (Template.substituteItems resolve items) items
  | [], _ => by simp only [Template.substituteItems]; exact .pure []
  | item :: rest, hspread => by
    simp only [Template.substituteItems, ItemsSpreadless] at hspread ⊢
    have hnone : spreadOf? item = none := by
      rw [spreadOf?_eq_none]
      exact fun s name hitem plain whole => hspread.1 ⟨s, name, hitem, plain, whole⟩
    rw [hnone]
    simp only [pure_bind]
    refine (h.substitute item hspread.2.1).bind ?_
    exact (h.substituteItems rest hspread.2.2).bind (.pure ([item] ++ rest))

theorem Echoes.substituteEntries (h : Echoes resolve) : (entries : List (String × Value)) →
    EntriesSpreadless entries → Results (Template.substituteEntries resolve entries) entries
  | [], _ => by simp only [Template.substituteEntries]; exact .pure []
  | (key, value) :: rest, hspread => by
    simp only [Template.substituteEntries, EntriesSpreadless] at hspread ⊢
    refine (h.substitute value hspread.1).bind ?_
    exact (h.substituteEntries rest hspread.2).bind (.pure ((key, value) :: rest))

end

end

/-- The holes of a text do not overlap. A text that is not one hole is filled at all its holes, from
left to right, and nowhere else. A text without holes stays, and a template without spreads is the
result of answering each identifier with its hole. -/
theorem substitute_fills :
    (∀ (s : String) (hole other : Occurrence), hole.In s.toList → other.In s.toList →
      hole = other ∨ hole.stop ≤ other.start ∨ other.stop ≤ hole.start) ∧
    (∀ s : String, (∀ name, Plain name → s.toList ≠ bracketed name) →
      ∃ holes : List Occurrence, (∀ hole, hole ∈ holes ↔ hole.In s.toList) ∧
        (holes.Pairwise fun hole later => hole.stop ≤ later.start) ∧
        ∀ {σ : Type} (resolve : Resolver (StateM σ)),
          (Answers resolve fun _ value => Textual value) → ∀ state,
            let trace := exec (substitute (recorded resolve) (.string s)) [] state
            (substitute resolve (.string s)).run.run state = (trace.result, trace.world) ∧
              Filled s holes trace.state trace.result) ∧
    (∀ s : String, (∀ hole : Occurrence, ¬ hole.In s.toList) →
      ∀ {m : Type → Type} [Monad m] (resolve : Resolver m),
        substitute resolve (.string s) = pure (.string s)) ∧
    (∀ template, Spreadless template → ∀ {σ : Type} (resolve : Resolver (StateM σ)),
      Echoes resolve → ∀ state, ∃ state',
        (substitute resolve template).run.run state = (.ok template, state')) := by
  refine ⟨fun s hole other hhole hother => Occurrence.disjoint hhole hother, fun s hs => ?_,
    fun s hnone m _ resolve => substitute_of_no_hole resolve hnone,
    fun template hspread σ resolve hechoes => hechoes.substitute template hspread⟩
  refine ⟨occurrences (pieces s), fun hole => mem_occurrences, occurrences_pairwise _, ?_⟩
  intro σ resolve hanswers state
  have hplain :=
    answeredBy_recorded resolve (substitute Dialogue.asking (.string s)).run [] state
  rw [answeredBy_substitute, answeredBy_substitute] at hplain
  exact ⟨hplain, exec_substituteText hanswers hs state⟩

def numbering : Resolver (StateM Nat) := fun ident => do
  let count ← get
  set (count + 1)
  return if ident = "a" then .string "${b}" else .number (.integer count)

/-- Holes between dollar signs, braces and line ends: after two holes a third one begins that does
not end, and it has an empty one in it. -/
def mixed : String := "$$\x7ba\x7d$\x7bb\x7d\x7b$\x7b\n$\x7b\x7d"

theorem substitute_mixed_fills :
    (∀ name, Plain name → mixed.toList ≠ bracketed name) ∧
      (Answers numbering fun _ value => Textual value) ∧
      let trace := exec (substitute (recorded numbering) (.string mixed)) [] 0
      (∃ holes : List Occurrence, (∀ hole, hole ∈ holes ↔ hole.In mixed.toList) ∧
        Filled mixed holes trace.state trace.result) ∧
      trace.state.map (·.ident) = ["a", "b", ""] ∧
      trace.result.toOption.bind fillText? = some "$$\x7bb\x7d1\x7b$\x7b\n2" := by
  have hmixed : ∀ name, Plain name → mixed.toList ≠ bracketed name := by
    intro name _ hwhole
    simp [mixed, bracketed] at hwhole
  have hanswers : Answers numbering fun _ value => Textual value := by
    intro ident count
    refine ⟨_, count + 1, rfl, ?_⟩
    split
    · exact .string _
    · exact .number _
  obtain ⟨-, hfills, -⟩ := substitute_fills
  obtain ⟨holes, hmem, -, hrun⟩ := hfills mixed hmixed
  exact ⟨hmixed, hanswers, ⟨holes, hmem, (hrun numbering hanswers 0).2⟩, by decide +kernel,
    by decide +kernel⟩

end ManifestModules.Template
