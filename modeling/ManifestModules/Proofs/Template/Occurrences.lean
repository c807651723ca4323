import ManifestModules.Proofs.Template.Holes
import Mathlib.Data.List.Basic

/-!
# The holes of a text by their places

A hole ends before another one can begin, because nothing in it looks like the beginning of a hole.
The holes of a text therefore stand one behind the other, reading finds all of them, and each can be
replaced without moving anything but what comes after it.
-/

namespace ManifestModules.Template

/-- A hole at a place of a text. -/
@[ext]
structure Occurrence where
  start : Nat
  name : List Char
deriving DecidableEq, Repr

namespace Occurrence

def stop (hole : Occurrence) : Nat :=
  hole.start + (bracketed hole.name).length

def In (hole : Occurrence) (text : List Char) : Prop :=
  Plain hole.name ∧ ∃ before after,
    text = before ++ bracketed hole.name ++ after ∧ before.length = hole.start

def behind (length : Nat) (hole : Occurrence) : Occurrence :=
  { hole with start := length + hole.start }

variable {hole : Occurrence} {text rest : List Char} {length : Nat}

@[simp] theorem behind_start : (hole.behind length).start = length + hole.start := rfl

@[simp] theorem behind_name : (hole.behind length).name = hole.name := rfl

@[simp] theorem behind_stop : (hole.behind length).stop = length + hole.stop :=
  Nat.add_assoc ..

theorem in_iff_drop :
    hole.In text ↔ Plain hole.name ∧ bracketed hole.name <+: text.drop hole.start := by
  refine and_congr_right fun _ => ?_
  constructor
  · rintro ⟨before, after, rfl, hstart⟩
    rw [← hstart, List.append_assoc, List.drop_left]
    exact List.prefix_append ..
  · rintro ⟨after, hafter⟩
    refine ⟨text.take hole.start, after, ?_, ?_⟩
    · rw [List.append_assoc, hafter, List.take_append_drop]
    · have hlength := congrArg List.length hafter
      simp only [List.length_append, length_bracketed, List.length_drop] at hlength
      simp only [List.length_take]
      omega

/-- The holes behind the front of a text. -/
theorem behind_in (front : List Char) :
    (hole.behind front.length).In (front ++ rest) ↔ hole.In rest := by
  simp [in_iff_drop]

end Occurrence

/-- Within the name of a hole no other hole begins. -/
theorem not_bracketed_prefix_drop {name : List Char} (h : Plain name) (other rest : List Char)
    (offset : Nat) (hoffset : offset ≤ name.length) :
    ¬ bracketed other <+: (name ++ '\x7d' :: rest).drop offset := by
  induction name generalizing offset with
  | nil =>
    rw [List.length_nil, Nat.le_zero] at hoffset
    simp [hoffset, bracketed]
  | cons c name ih =>
    obtain ⟨hc, hname⟩ := plain_cons.1 h
    cases offset with
    | zero =>
      intro hbegins
      cases name with
      | nil => simp [bracketed] at hbegins
      | cons d name =>
        simp only [bracketed, List.cons_append, List.drop_zero, List.cons_prefix_cons] at hbegins
        exact (plain_cons.1 hname).1.1 hbegins.2.1.symm
    | succ offset => exact ih hname offset (by simpa using hoffset)

/-- What begins behind the beginning of a hole begins behind its end. -/
theorem length_le_of_bracketed_prefix_drop {name other rest : List Char} (h : Plain name)
    {offset : Nat} (hbegins : bracketed other <+: (bracketed name ++ rest).drop (offset + 1)) :
    (bracketed name).length ≤ offset + 1 := by
  cases offset with
  | zero => simp [bracketed] at hbegins
  | succ offset =>
    have hdrop : (bracketed name ++ rest).drop (offset + 2) =
        (name ++ '\x7d' :: rest).drop offset := by simp [bracketed]
    rw [hdrop] at hbegins
    have hbehind := mt (not_bracketed_prefix_drop h other rest offset) (not_not_intro hbegins)
    rw [length_bracketed]
    omega

/-- At most one hole begins at a place. -/
theorem eq_of_bracketed_prefix {name other text : List Char} (hname : Plain name)
    (hother : Plain other) (h : bracketed name <+: text) (h' : bracketed other <+: text) :
    name = other := by
  have hfound := holeAt?_eq_some.2 ⟨hname, h⟩
  rw [holeAt?_eq_some.2 ⟨hother, h'⟩, Option.some.injEq] at hfound
  exact hfound.symm

namespace Occurrence

variable {hole other : Occurrence} {text : List Char}

theorem eq_or_stop_le (hhole : hole.In text) (hother : other.In text)
    (h : hole.start ≤ other.start) : hole = other ∨ hole.stop ≤ other.start := by
  obtain ⟨hplain, hbegins⟩ := in_iff_drop.1 hhole
  obtain ⟨hplain', hbegins'⟩ := in_iff_drop.1 hother
  obtain ⟨offset, hoffset⟩ := Nat.exists_eq_add_of_le h
  obtain ⟨rest, hrest⟩ := hbegins
  rw [hoffset, ← List.drop_drop, ← hrest] at hbegins'
  -- the other hole begins at an offset in this one, or behind it
  cases offset with
  | zero =>
    left
    ext1
    · exact hoffset.symm
    · exact eq_of_bracketed_prefix hplain hplain' (List.prefix_append ..) hbegins'
  | succ offset =>
    right
    rw [stop, hoffset]
    exact Nat.add_le_add_left (length_le_of_bracketed_prefix_drop hplain hbegins') _

/-- Two holes of a text have no character in common. -/
theorem disjoint (hhole : hole.In text) (hother : other.In text) :
    hole = other ∨ hole.stop ≤ other.start ∨ other.stop ≤ hole.start := by
  rcases Nat.le_total hole.start other.start with h | h
  · exact (eq_or_stop_le hhole hother h).imp_right .inl
  · exact (eq_or_stop_le hother hhole h).imp Eq.symm .inr

theorem exists_behind {length : Nat} (h : length ≤ hole.start) :
    ∃ shifted : Occurrence, shifted.behind length = hole := by
  refine ⟨⟨hole.start - length, hole.name⟩, ?_⟩
  rw [behind, Nat.add_sub_cancel' h]

end Occurrence

open Occurrence

/-! ## Holes that are read -/

def occurrences : List Piece → List Occurrence
  | [] => []
  | .char _ :: rest => (occurrences rest).map (behind 1)
  | .hole name :: rest => ⟨0, name⟩ :: (occurrences rest).map (behind (bracketed name).length)

/-- Reading finds exactly the holes of a text. -/
theorem mem_occurrences {hole : Occurrence} {text : List Char} :
    hole ∈ occurrences (piecesFrom 0 text) ↔ hole.In text := by
  induction text using reading_induction generalizing hole with
  | nil => simp [piecesFrom, occurrences, in_iff_drop, bracketed]
  | hole name rest plain ih =>
    have hfirst : In ⟨0, name⟩ (bracketed name ++ rest) := ⟨plain, [], rest, rfl, rfl⟩
    rw [piecesFrom_hole plain, occurrences, List.mem_cons, List.mem_map]
    constructor
    · rintro (rfl | ⟨shifted, hshifted, rfl⟩)
      · exact hfirst
      · exact (behind_in _).2 (ih.1 hshifted)
    · intro hhole
      rcases eq_or_stop_le hfirst hhole (Nat.zero_le _) with heq | hstop
      · exact .inl heq.symm
      · rw [stop, Nat.zero_add] at hstop
        obtain ⟨shifted, rfl⟩ := exists_behind hstop
        exact .inr ⟨shifted, ih.2 ((behind_in _).1 hhole), rfl⟩
  | char c rest noHole ih =>
    rw [piecesFrom_char noHole, occurrences, List.mem_map]
    constructor
    · rintro ⟨shifted, hshifted, rfl⟩
      exact (behind_in [c]).2 (ih.1 hshifted)
    · intro hhole
      have hstart : 1 ≤ hole.start := by
        rw [Nat.one_le_iff_ne_zero]
        intro hzero
        obtain ⟨hplain, hbegins⟩ := in_iff_drop.1 hhole
        rw [hzero] at hbegins
        exact noHole hole.name hplain hbegins
      obtain ⟨shifted, rfl⟩ := exists_behind hstart
      exact ⟨shifted, ih.2 ((behind_in [c]).1 hhole), rfl⟩

/-- The holes are read from left to right. -/
theorem occurrences_pairwise (parts : List Piece) :
    (occurrences parts).Pairwise fun hole later => hole.stop ≤ later.start := by
  have hbehind (length : Nat) {holes : List Occurrence}
      (h : holes.Pairwise fun hole later => hole.stop ≤ later.start) :
      (holes.map (behind length)).Pairwise fun hole later => hole.stop ≤ later.start := by
    rw [List.pairwise_map]
    exact h.imp fun hle => by simpa using hle
  induction parts with
  | nil => exact .nil
  | cons part rest ih =>
    cases part with
    | char c => exact hbehind 1 ih
    | hole name =>
      refine .cons (fun later hlater => ?_) (hbehind _ ih)
      obtain ⟨shifted, -, rfl⟩ := List.mem_map.1 hlater
      simp [stop]

/-! ## Holes that are replaced -/

/-- The text from a position on, with each of the holes, which stand one behind the other, replaced
by another text. -/
def refill (text : List Char) (position : Nat) : List (Occurrence × List Char) → List Char
  | [] => text.drop position
  | (hole, new) :: rest =>
    (text.take hole.start).drop position ++ new ++ refill text hole.stop rest

theorem refill_behind (front text : List Char) (position : Nat)
    (filled : List (Occurrence × List Char)) :
    refill (front ++ text) (front.length + position)
      (filled.map (Prod.map (behind front.length) id)) = refill text position filled := by
  induction filled generalizing position with
  | nil => simp [refill]
  | cons first rest ih =>
    obtain ⟨hole, new⟩ := first
    simp [refill, ih, List.take_append, List.drop_append]

theorem refill_hole (name text new : List Char) (filled : List (Occurrence × List Char)) :
    refill (bracketed name ++ text) 0
      ((⟨0, name⟩, new) :: filled.map (Prod.map (behind (bracketed name).length) id)) =
        new ++ refill text 0 filled := by
  have hrest := refill_behind (bracketed name) text 0 filled
  simpa [refill, stop] using hrest

theorem refill_char (c : Char) (text : List Char) (filled : List (Occurrence × List Char)) :
    refill (c :: text) 0 (filled.map (Prod.map (behind 1) id)) = c :: refill text 0 filled := by
  cases filled with
  | nil => rfl
  | cons first rest =>
    obtain ⟨hole, new⟩ := first
    have hrest := refill_behind [c] text hole.stop rest
    simp only [List.length_singleton, List.singleton_append, Nat.add_comm 1] at hrest
    simp [refill, hrest, Nat.add_comm 1]

end ManifestModules.Template
