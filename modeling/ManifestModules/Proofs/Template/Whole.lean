import ManifestModules.Proofs.Template.Lookup
import ManifestModules.Proofs.Template.Occurrences

/-!
# Texts that are one hole

A text is one hole if nothing stands around the hole, and one spread if the name of this hole ends
in three dots. A text that is one hole contains no other one.
-/

namespace ManifestModules.Template

variable {s ident : String}

theorem eq_hole_iff : s = "$\x7b" ++ ident ++ "\x7d" ↔ s.toList = bracketed ident.toList := by
  rw [← String.toList_inj]
  simp [bracketed]

theorem eq_spread_iff :
    s = "$\x7b" ++ ident ++ "...\x7d" ↔ s.toList = bracketed (ident.toList ++ dots) := by
  rw [← String.toList_inj]
  simp [bracketed, dots]

/-- A text that is one hole contains this hole only. -/
theorem in_bracketed_iff {name : List Char} (plain : Plain name) {hole : Occurrence} :
    hole.In (bracketed name) ↔ hole = ⟨0, name⟩ := by
  have hpieces := piecesFrom_hole plain []
  rw [List.append_nil] at hpieces
  rw [← mem_occurrences, hpieces]
  simp [occurrences, piecesFrom]

/-- More dots at the end of an identifier do not change its head. -/
theorem splitIdent_append_dots (ident : String) :
    (splitIdent (ident ++ "...")).1 = (splitIdent ident).1 := by
  have hdots : ident ++ "..." = ident ++ "." ++ ".." := by
    rw [String.append_assoc]
    rfl
  rw [hdots, splitIdent_append]

/-- A text is read as one hole or as one spread just if it is written as one. A spread is also one
hole, whose name has the same head, and it contains no other hole. -/
theorem whole_exact (s ident : String) :
    (expandIdent? s = some ident ↔
      s = "$\x7b" ++ ident ++ "\x7d" ∧ '\x7b' ∉ ident.toList ∧ '\x7d' ∉ ident.toList) ∧
    (spreadIdent? s = some ident ↔
      s = "$\x7b" ++ ident ++ "...\x7d" ∧ '\x7b' ∉ ident.toList ∧ '\x7d' ∉ ident.toList) ∧
    (spreadIdent? s = some ident →
      expandIdent? s = some (ident ++ "...") ∧
      (splitIdent (ident ++ "...")).1 = (splitIdent ident).1 ∧
      ∀ hole : Occurrence, hole.In s.toList ↔ hole = ⟨0, (ident ++ "...").toList⟩) := by
  refine ⟨?_, ?_, fun h => ?_⟩
  · rw [expandIdent?_eq_some, eq_hole_iff]
    exact and_comm
  · rw [spreadIdent?_eq_some, eq_spread_iff]
    exact and_comm
  · obtain ⟨plain, whole⟩ := spreadIdent?_eq_some.1 h
    have hname : (ident ++ "...").toList = ident.toList ++ dots := String.toList_append
    have hplain : Plain (ident ++ "...").toList := hname ▸ plain_append_dots.2 plain
    rw [← hname] at whole
    refine ⟨expandIdent?_eq_some.2 ⟨hplain, whole⟩, splitIdent_append_dots ident, fun hole => ?_⟩
    rw [whole, in_bracketed_iff hplain]

example : spreadIdent? "$\x7ba.b....\x7d" = some "a.b." := by decide +kernel

end ManifestModules.Template
