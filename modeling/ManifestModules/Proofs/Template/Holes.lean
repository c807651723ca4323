import ManifestModules.Template.Hole

/-!
# Where holes begin and end

The text of a hole is its name between `${` and `}`, and a name has no brace of its own. Hence at
most one hole begins at any place of a text, and the recognizers find exactly these holes.
-/

namespace ManifestModules.Template

def Plain (name : List Char) : Prop :=
  '\x7b' ∉ name ∧ '\x7d' ∉ name

def bracketed (name : List Char) : List Char :=
  '$' :: '\x7b' :: (name ++ ['\x7d'])

/-- What follows the name of a spread. -/
def dots : List Char := ['.', '.', '.']

variable {name cs : List Char}

@[simp] theorem plain_nil : Plain [] := by
  simp [Plain]

@[simp] theorem plain_cons {c : Char} :
    Plain (c :: name) ↔ (c ≠ '\x7b' ∧ c ≠ '\x7d') ∧ Plain name := by
  simp only [Plain, List.mem_cons, not_or, ne_comm]
  exact and_and_and_comm

@[simp] theorem plain_append_dots : Plain (name ++ dots) ↔ Plain name := by
  simp [Plain, dots]

@[simp] theorem length_bracketed (name : List Char) :
    (bracketed name).length = name.length + 3 := by
  simp [bracketed]

theorem bodyAt?_eq_some :
    bodyAt? cs = some name ↔ Plain name ∧ name ++ ['\x7d'] <+: cs := by
  induction cs generalizing name with
  | nil => simp [bodyAt?]
  | cons c rest ih =>
    rw [bodyAt?]
    by_cases hclose : c = '\x7d'
    · subst hclose
      cases name <;> simp +contextual [eq_comm]
    by_cases hopen : c = '\x7b'
    · subst hopen
      cases name <;> simp +contextual [eq_comm]
    simp only [hclose, hopen, if_false, Option.map_eq_some_iff, ih]
    cases name with
    | nil => simp [Ne.symm hclose]
    | cons d name =>
      simp only [plain_cons, List.cons_append, List.cons_prefix_cons, List.cons.injEq]
      constructor
      · rintro ⟨_, ⟨hplain, hbegins⟩, rfl, rfl⟩
        exact ⟨⟨⟨hopen, hclose⟩, hplain⟩, rfl, hbegins⟩
      · rintro ⟨⟨-, hplain⟩, rfl, hbegins⟩
        exact ⟨name, ⟨hplain, hbegins⟩, rfl, rfl⟩

/-- The hole at the beginning of a text. -/
theorem holeAt?_eq_some : holeAt? cs = some name ↔ Plain name ∧ bracketed name <+: cs := by
  fun_cases holeAt? cs with
  | case1 c d rest h =>
    obtain ⟨rfl, rfl⟩ := h
    simp only [bracketed, List.cons_prefix_cons, true_and]
    exact bodyAt?_eq_some
  | case2 c d rest h =>
    simp only [bracketed, List.cons_prefix_cons, reduceCtorEq, false_iff]
    rintro ⟨-, rfl, rfl, -⟩
    exact h ⟨rfl, rfl⟩
  | case3 _ short =>
    simp only [reduceCtorEq, false_iff]
    rintro ⟨-, rest, rfl⟩
    exact short _ _ _ rfl

theorem piecesFrom_eq_drop (skip : Nat) (cs : List Char) :
    piecesFrom skip cs = piecesFrom 0 (cs.drop skip) := by
  induction skip generalizing cs with
  | zero => rfl
  | succ skip ih =>
    cases cs with
    | nil => simp only [piecesFrom, List.drop_nil]
    | cons c rest => rw [piecesFrom, ih, List.drop_succ_cons]

/-- A text that begins with a hole. -/
theorem piecesFrom_hole (h : Plain name) (rest : List Char) :
    piecesFrom 0 (bracketed name ++ rest) = .hole name :: piecesFrom 0 rest := by
  have hhole : holeAt? (bracketed name ++ rest) = some name :=
    holeAt?_eq_some.2 ⟨h, List.prefix_append _ _⟩
  rw [bracketed, List.cons_append] at hhole ⊢
  rw [piecesFrom, hhole]
  simp only [piecesFrom_eq_drop (name.length + 2)]
  simp

/-- A text that does not begin with a hole. -/
theorem piecesFrom_char {c : Char} (h : ∀ name, Plain name → ¬ bracketed name <+: c :: cs) :
    piecesFrom 0 (c :: cs) = .char c :: piecesFrom 0 cs := by
  have hnone : holeAt? (c :: cs) = none := by
    apply Option.eq_none_iff_forall_ne_some.2
    intro name hname
    exact h name (holeAt?_eq_some.1 hname).1 (holeAt?_eq_some.1 hname).2
  rw [piecesFrom, hnone]

/-- A text is read hole by hole and, between the holes, character by character. A hole is read in
one step, so the induction is on the length. -/
theorem reading_induction {motive : List Char → Prop} (nil : motive [])
    (hole : ∀ name rest, Plain name → motive rest → motive (bracketed name ++ rest))
    (char : ∀ c rest, (∀ name, Plain name → ¬ bracketed name <+: c :: rest) → motive rest →
      motive (c :: rest))
    (cs : List Char) : motive cs := by
  induction hlength : cs.length using Nat.strongRecOn generalizing cs with
  | ind length ih =>
    subst hlength
    cases cs with
    | nil => exact nil
    | cons c rest =>
      by_cases hhole : ∃ name, Plain name ∧ bracketed name <+: c :: rest
      · obtain ⟨name, hplain, after, hafter⟩ := hhole
        have hshort : after.length < (c :: rest).length := by
          rw [← hafter, List.length_append, length_bracketed]
          omega
        rw [← hafter]
        exact hole name after hplain (ih after.length hshort after rfl)
      · have hchar : ∀ name, Plain name → ¬ bracketed name <+: c :: rest :=
          fun name hplain hbegins => hhole ⟨name, hplain, hbegins⟩
        exact char c rest hchar (ih rest.length (Nat.lt_succ_self _) rest rfl)

theorem expandIdent?_eq_some {s ident : String} :
    expandIdent? s = some ident ↔ Plain ident.toList ∧ s.toList = bracketed ident.toList := by
  constructor
  · intro h
    rw [expandIdent?] at h
    cases hname : holeAt? s.toList with
    | none => simp [hname] at h
    | some name =>
      by_cases hlength : s.toList.length = name.length + 3
      · simp only [hname, hlength, if_true, Option.some.injEq] at h
        subst h
        obtain ⟨hplain, hbegins⟩ := holeAt?_eq_some.1 hname
        rw [String.toList_ofList]
        exact ⟨hplain, (hbegins.eq_of_length (by simp [hlength])).symm⟩
      · simp [hname, hlength] at h
  · rintro ⟨hplain, hs⟩
    have hname : holeAt? s.toList = some ident.toList :=
      holeAt?_eq_some.2 ⟨hplain, hs ▸ List.prefix_rfl⟩
    rw [expandIdent?, hname]
    simp [hs]

theorem withoutDots?_eq_some {base : List Char} :
    withoutDots? name = some base ↔ name = base ++ dots := by
  rw [withoutDots?]
  constructor
  · intro h
    by_cases hdots : name.drop (name.length - 3) = ['.', '.', '.']
    · simp only [hdots, if_true, Option.some.injEq] at h
      rw [← h, dots, ← hdots, List.take_append_drop]
    · simp [hdots] at h
  · rintro rfl
    simp [dots]

theorem spreadIdent?_eq_some {s ident : String} :
    spreadIdent? s = some ident ↔
      Plain ident.toList ∧ s.toList = bracketed (ident.toList ++ dots) := by
  simp only [spreadIdent?, Option.bind_eq_some_iff, Option.map_eq_some_iff, expandIdent?_eq_some,
    withoutDots?_eq_some]
  constructor
  · rintro ⟨name, ⟨hplain, hs⟩, base, hbase, rfl⟩
    rw [hbase] at hplain hs
    rw [String.toList_ofList]
    exact ⟨plain_append_dots.1 hplain, hs⟩
  · rintro ⟨hplain, hs⟩
    exact ⟨String.ofList (ident.toList ++ dots), by simpa using ⟨hplain, hs⟩, ident.toList,
      String.toList_ofList, String.ofList_toList⟩

end ManifestModules.Template
