import ManifestModules.Proofs.Effect
import ManifestModules.Proofs.Template.Dialogue
import ManifestModules.Proofs.Template.Holes

/-!
# The questions of a template

A template asks one question for each of its holes, from the beginning to the end. Which questions
these are depends on the template alone; an answer can only end the dialogue early, if it is a
failure or does not fit its place.
-/

namespace ManifestModules.Template

/-- The place of a hole: a whole string, a list item that is spread, or a part of a longer text. -/
inductive Place where
  | whole
  | spread
  | part (text : String)
deriving DecidableEq, Repr

structure Question where
  ident : String
  place : Place
deriving DecidableEq, Repr

def Question.mismatch? (question : Question) (value : Value) : Option Failure :=
  match question.place, value with
  | .whole, _ | .spread, .list _ | .part _, .string _ | .part _, .number _ => none
  | .spread, _ => some (.spreadTypeMismatch question.ident value.typeName)
  | .part text, _ => some (.fillTypeMismatch question.ident text value.typeName)

/-! ## Reading a template -/

/-- The questions of the rest of a longer text: each hole in it, from left to right. -/
inductive TextAsks (text : String) : List Char → List Question → Prop where
  | nil : TextAsks text [] []
  | hole {name rest : List Char} {later : List Question} (plain : Plain name)
      (asks : TextAsks text rest later) :
      TextAsks text (bracketed name ++ rest) (⟨String.ofList name, .part text⟩ :: later)
  | char {c : Char} {rest : List Char} {later : List Question}
      (noHole : ∀ name, Plain name → ¬ bracketed name <+: c :: rest)
      (asks : TextAsks text rest later) : TextAsks text (c :: rest) later

mutual

/-- The questions of a template, in order. -/
inductive Asks : Value → List Question → Prop where
  | null : Asks .null []
  | bool (b : Bool) : Asks (.bool b) []
  | number (n : Number) : Asks (.number n) []
  | hole {s ident : String} (plain : Plain ident.toList)
      (whole : s.toList = bracketed ident.toList) : Asks (.string s) [⟨ident, .whole⟩]
  | text {s : String} {questions : List Question}
      (noHole : ∀ name, Plain name → s.toList ≠ bracketed name)
      (asks : TextAsks s s.toList questions) : Asks (.string s) questions
  | list {items : List Value} {questions : List Question} (asks : ItemsAsk items questions) :
      Asks (.list items) questions
  | map {entries : Entries} {questions : List Question} (asks : EntriesAsk entries questions) :
      Asks (.map entries) questions

inductive ItemsAsk : List Value → List Question → Prop where
  | nil : ItemsAsk [] []
  | spread {s ident : String} {rest : List Value} {later : List Question}
      (plain : Plain ident.toList) (whole : s.toList = bracketed (ident.toList ++ dots))
      (asks : ItemsAsk rest later) :
      ItemsAsk (.string s :: rest) (⟨ident, .spread⟩ :: later)
  | item {item : Value} {rest : List Value} {questions later : List Question}
      (noSpread : ∀ s name, item = .string s → Plain name → s.toList ≠ bracketed (name ++ dots))
      (first : Asks item questions) (asks : ItemsAsk rest later) :
      ItemsAsk (item :: rest) (questions ++ later)

inductive EntriesAsk : Entries → List Question → Prop where
  | nil : EntriesAsk [] []
  | cons {key : String} {value : Value} {rest : Entries} {questions later : List Question}
      (least : ∀ entry ∈ rest, key < entry.1) (first : Asks value questions)
      (asks : EntriesAsk rest later) : EntriesAsk ((key, value) :: rest) (questions ++ later)

end

mutual

/-- The keys of each map in a value ascend. -/
def Ordered : Value → Prop
  | .list items => ItemsOrdered items
  | .map entries => Table.Sorted entries ∧ EntriesOrdered entries
  | .null | .bool _ | .number _ | .string _ => True

def ItemsOrdered : List Value → Prop
  | [] => True
  | item :: rest => Ordered item ∧ ItemsOrdered rest

def EntriesOrdered : List (String × Value) → Prop
  | [] => True
  | (_, value) :: rest => Ordered value ∧ EntriesOrdered rest

end

/-! ## The questions as the recognizers of holes find them -/

def Piece.question? (text : String) : Piece → Option Question
  | .hole name => some ⟨String.ofList name, .part text⟩
  | .char _ => none

def textQuestions (s : String) : List Question :=
  match expandIdent? s with
  | some ident => [⟨ident, .whole⟩]
  | none => (pieces s).filterMap (Piece.question? s)

mutual

def questions : Value → List Question
  | .string s => textQuestions s
  | .list items => itemQuestions items
  | .map entries => entryQuestions entries
  | .null | .bool _ | .number _ => []

def itemQuestions : List Value → List Question
  | [] => []
  | item :: rest =>
    (match spreadOf? item with
      | some ident => [⟨ident, .spread⟩]
      | none => questions item) ++ itemQuestions rest

def entryQuestions : List (String × Value) → List Question
  | [] => []
  | (_, value) :: rest => questions value ++ entryQuestions rest

end

theorem spreadOf?_eq_some {item : Value} {ident : String} :
    spreadOf? item = some ident ↔
      ∃ s, item = .string s ∧ Plain ident.toList ∧ s.toList = bracketed (ident.toList ++ dots) := by
  cases item <;> simp [spreadOf?, spreadIdent?_eq_some]

theorem spreadOf?_eq_none {item : Value} :
    spreadOf? item = none ↔
      ∀ s name, item = .string s → Plain name → s.toList ≠ bracketed (name ++ dots) := by
  rw [Option.eq_none_iff_forall_ne_some]
  constructor
  · intro h s name hitem hplain hs
    apply h (String.ofList name)
    exact spreadOf?_eq_some.2 ⟨s, hitem, by simpa using ⟨hplain, hs⟩⟩
  · intro h ident hident
    obtain ⟨s, hitem, hplain, hs⟩ := spreadOf?_eq_some.1 hident
    exact h s ident.toList hitem hplain hs

theorem expandIdent?_eq_none {s : String} :
    expandIdent? s = none ↔ ∀ name, Plain name → s.toList ≠ bracketed name := by
  rw [Option.eq_none_iff_forall_ne_some]
  constructor
  · intro h name hplain hs
    apply h (String.ofList name)
    rw [expandIdent?_eq_some]
    simpa using ⟨hplain, hs⟩
  · intro h ident hident
    obtain ⟨hplain, hs⟩ := expandIdent?_eq_some.1 hident
    exact h ident.toList hplain hs

theorem TextAsks.eq {text : String} {cs : List Char} {asked : List Question}
    (h : TextAsks text cs asked) : (piecesFrom 0 cs).filterMap (Piece.question? text) = asked := by
  induction h with
  | nil => simp [piecesFrom]
  | hole plain _ ih =>
    rw [piecesFrom_hole plain]
    exact congrArg (_ :: ·) ih
  | char noHole _ ih =>
    rw [piecesFrom_char noHole]
    exact ih

theorem textAsks (text : String) (cs : List Char) :
    TextAsks text cs ((piecesFrom 0 cs).filterMap (Piece.question? text)) := by
  induction cs using reading_induction with
  | nil => exact .nil
  | hole name rest plain ih =>
    rw [piecesFrom_hole plain]
    exact .hole plain ih
  | char c rest noHole ih =>
    rw [piecesFrom_char noHole]
    exact .char noHole ih

mutual

theorem Asks.eq {value : Value} {asked : List Question} : Asks value asked → questions value = asked
  | .null | .bool _ | .number _ => by simp only [questions]
  | .hole plain whole => by
    simp only [questions, textQuestions, expandIdent?_eq_some.2 ⟨plain, whole⟩]
  | .text noHole asks => by
    simp only [questions, textQuestions, expandIdent?_eq_none.2 noHole]
    exact asks.eq
  | .list asks => by
    simp only [questions]
    exact asks.eq
  | .map asks => by
    simp only [questions]
    exact asks.eq

theorem ItemsAsk.eq {items : List Value} {asked : List Question} :
    ItemsAsk items asked → itemQuestions items = asked
  | .nil => by simp only [itemQuestions]
  | .spread plain whole asks => by
    simp only [itemQuestions, spreadOf?_eq_some.2 ⟨_, rfl, plain, whole⟩, asks.eq]
    rfl
  | .item noSpread first asks => by
    simp only [itemQuestions, spreadOf?_eq_none.2 noSpread, first.eq, asks.eq]

theorem EntriesAsk.eq {entries : Entries} {asked : List Question} :
    EntriesAsk entries asked → entryQuestions entries = asked
  | .nil => by simp only [entryQuestions]
  | .cons _ first asks => by simp only [entryQuestions, first.eq, asks.eq]

end

mutual

theorem asks_questions : (value : Value) → Ordered value → Asks value (questions value)
  | .null, _ => by simp only [questions]; exact .null
  | .bool b, _ => by simp only [questions]; exact .bool b
  | .number n, _ => by simp only [questions]; exact .number n
  | .string s, _ => by
    simp only [questions, textQuestions]
    cases hs : expandIdent? s with
    | some ident =>
      obtain ⟨plain, whole⟩ := expandIdent?_eq_some.1 hs
      exact .hole plain whole
    | none => exact .text (expandIdent?_eq_none.1 hs) (textAsks s s.toList)
  | .list items, h => by
    simp only [questions, Ordered] at h ⊢
    exact .list (itemsAsk_questions items h)
  | .map entries, h => by
    simp only [questions, Ordered] at h ⊢
    exact .map (entriesAsk_questions entries h.1 h.2)

theorem itemsAsk_questions : (items : List Value) → ItemsOrdered items →
    ItemsAsk items (itemQuestions items)
  | [], _ => by simp only [itemQuestions]; exact .nil
  | item :: rest, h => by
    simp only [itemQuestions, ItemsOrdered] at h ⊢
    cases hs : spreadOf? item with
    | some ident =>
      obtain ⟨s, rfl, plain, whole⟩ := spreadOf?_eq_some.1 hs
      exact .spread plain whole (itemsAsk_questions rest h.2)
    | none =>
      exact .item (spreadOf?_eq_none.1 hs) (asks_questions item h.1) (itemsAsk_questions rest h.2)

theorem entriesAsk_questions : (entries : List (String × Value)) → Table.Sorted entries →
    EntriesOrdered entries → EntriesAsk entries (entryQuestions entries)
  | [], _, _ => by simp only [entryQuestions]; exact .nil
  | (key, value) :: rest, hsorted, h => by
    simp only [entryQuestions, EntriesOrdered] at h ⊢
    obtain ⟨hleast, hrest⟩ := List.pairwise_cons.1 hsorted
    exact .cons hleast (asks_questions value h.1) (entriesAsk_questions rest hrest h.2)

end

theorem asks_iff {value : Value} (h : Ordered value) {asked : List Question} :
    Asks value asked ↔ asked = questions value := by
  constructor
  · intro hasks
    exact hasks.eq.symm
  · rintro rfl
    exact asks_questions value h

end ManifestModules.Template
