import ManifestModules.Text.EditDistance
import Mathlib.Data.List.Induction
import Mathlib.Order.Bounds.Defs
import Mathlib.Order.MinMax

/-!
# The least number of edits

The edit distance of two texts is the least number of edits that turn one into the other. The table
of distances is built from the beginnings of both texts, while a recursion on the texts takes off
their first characters; the two meet because texts that are read backwards need as many edits.
-/

namespace ManifestModules.Text

inductive Edit : List Char → List Char → Prop where
  | insert (before after : List Char) (c : Char) : Edit (before ++ after) (before ++ c :: after)
  | delete (before after : List Char) (c : Char) : Edit (before ++ c :: after) (before ++ after)
  | replace (before after : List Char) (c d : Char) :
    Edit (before ++ c :: after) (before ++ d :: after)

inductive Edits : Nat → List Char → List Char → Prop where
  | none (text : List Char) : Edits 0 text text
  | more {count : Nat} {source middle target : List Char} :
    Edits count source middle → Edit middle target → Edits (count + 1) source target

section

variable {count : Nat} {source target : List Char}

theorem Edit.cons (c : Char) (h : Edit source target) : Edit (c :: source) (c :: target) := by
  cases h with
  | insert before after d => exact .insert (c :: before) after d
  | delete before after d => exact .delete (c :: before) after d
  | replace before after d e => exact .replace (c :: before) after d e

theorem Edit.reverse (h : Edit source target) : Edit source.reverse target.reverse := by
  cases h with
  | insert before after c => simpa using Edit.insert after.reverse before.reverse c
  | delete before after c => simpa using Edit.delete after.reverse before.reverse c
  | replace before after c d => simpa using Edit.replace after.reverse before.reverse c d

theorem Edits.cons (c : Char) (h : Edits count source target) :
    Edits count (c :: source) (c :: target) := by
  induction h with
  | none text => exact .none (c :: text)
  | more _ hedit ih => exact ih.more (hedit.cons c)

theorem Edits.reverse (h : Edits count source target) :
    Edits count source.reverse target.reverse := by
  induction h with
  | none text => exact .none text.reverse
  | more _ hedit ih => exact ih.more hedit.reverse

theorem Edits.min_count {other : Nat} (h : Edits count source target)
    (h' : Edits other source target) : Edits (min count other) source target := by
  rcases min_choice count other with hmin | hmin
  · rwa [hmin]
  · rwa [hmin]

/-- An edit of the first character after all others. -/
theorem Edits.insert (d : Char) (h : Edits count source target) :
    Edits (count + 1) source (d :: target) :=
  h.more (.insert [] target d)

theorem Edits.delete (c : Char) (h : Edits count source target) :
    Edits (count + 1) (c :: source) target :=
  (h.cons c).more (.delete [] target c)

theorem Edits.replace (c d : Char) (h : Edits count source target) :
    Edits (count + 1) (c :: source) (d :: target) :=
  (h.cons c).more (.replace [] target c d)

end

/-! ## Edits from the front -/

/-- The number of edits that are needed, found from the first characters of both texts. -/
def leastEdits : List Char → List Char → Nat
  | [], target => target.length
  | source, [] => source.length
  | c :: source, d :: target =>
    min (min (leastEdits (c :: source) target + 1) (leastEdits source (d :: target) + 1))
      (if c = d then leastEdits source target else leastEdits source target + 1)

@[simp] theorem leastEdits_nil_left (target : List Char) :
    leastEdits [] target = target.length := by
  rw [leastEdits]

@[simp] theorem leastEdits_nil_right (source : List Char) :
    leastEdits source [] = source.length := by
  cases source <;> simp [leastEdits]

theorem leastEdits_cons_cons (c d : Char) (source target : List Char) :
    leastEdits (c :: source) (d :: target) =
      min (min (leastEdits (c :: source) target + 1) (leastEdits source (d :: target) + 1))
        (if c = d then leastEdits source target else leastEdits source target + 1) := by
  rw [leastEdits]

/-- So many edits are enough. -/
theorem edits_leastEdits (source target : List Char) :
    Edits (leastEdits source target) source target := by
  induction source generalizing target with
  | nil =>
    induction target with
    | nil => simpa using Edits.none []
    | cons d target ih => simpa using ih.insert d
  | cons c source ih =>
    induction target with
    | nil => simpa using (ih []).delete c
    | cons d target ihTarget =>
      have hreplace : Edits (if c = d then leastEdits source target
          else leastEdits source target + 1) (c :: source) (d :: target) := by
        by_cases heq : c = d
        · subst heq
          simpa using (ih target).cons c
        · simpa [heq] using (ih target).replace c d
      rw [leastEdits_cons_cons]
      exact ((ihTarget.insert d).min_count ((ih (d :: target)).delete c)).min_count hreplace

section

variable {source target target' : List Char}

theorem leastEdits_cons_left_le (c : Char) (source target : List Char) :
    leastEdits (c :: source) target ≤ leastEdits source target + 1 := by
  cases target with
  | nil => simp
  | cons d target =>
    rw [leastEdits_cons_cons]
    omega

theorem leastEdits_cons_right_le (d : Char) (source target : List Char) :
    leastEdits source (d :: target) ≤ leastEdits source target + 1 := by
  cases source with
  | nil => simp
  | cons c source =>
    rw [leastEdits_cons_cons]
    omega

theorem leastEdits_le_cons_right (d : Char) (source target : List Char) :
    leastEdits source target ≤ leastEdits source (d :: target) + 1 := by
  induction source with
  | nil => simp; omega
  | cons c source ih =>
    -- whichever edit comes first, the rest is within one edit of the shorter target
    have hdelete := leastEdits_cons_left_le c source target
    rw [leastEdits_cons_cons]
    split <;> omega

theorem leastEdits_replace_le (c d : Char) (source target : List Char) :
    leastEdits source (d :: target) ≤ leastEdits source (c :: target) + 1 := by
  induction source with
  | nil => simp
  | cons e source ih =>
    rw [leastEdits_cons_cons, leastEdits_cons_cons e c]
    split <;> split <;> omega

/-- What differs by one edit behind a common character differs by one edit with it. -/
theorem leastEdits_cons_le_cons
    (h : ∀ source, leastEdits source target ≤ leastEdits source target' + 1)
    (c : Char) (source : List Char) :
    leastEdits source (c :: target) ≤ leastEdits source (c :: target') + 1 := by
  induction source with
  | nil => simpa using h []
  | cons d source ih =>
    have hdelete := h (d :: source)
    have hkeep := h source
    rw [leastEdits_cons_cons, leastEdits_cons_cons]
    split <;> omega

theorem leastEdits_append_le_append
    (h : ∀ source, leastEdits source target ≤ leastEdits source target' + 1)
    (before source : List Char) :
    leastEdits source (before ++ target) ≤ leastEdits source (before ++ target') + 1 := by
  induction before generalizing source with
  | nil => exact h source
  | cons c before ih => exact leastEdits_cons_le_cons ih c source

/-- One more edit of the target makes at most one edit more. -/
theorem Edit.leastEdits_le (h : Edit target target') (source : List Char) :
    leastEdits source target' ≤ leastEdits source target + 1 := by
  cases h with
  | insert before after c =>
    exact leastEdits_append_le_append (fun source => leastEdits_cons_right_le c source after) _ _
  | delete before after c =>
    exact leastEdits_append_le_append (fun source => leastEdits_le_cons_right c source after) _ _
  | replace before after c d =>
    exact leastEdits_append_le_append (fun source => leastEdits_replace_le c d source after) _ _

/-- No fewer edits are enough. -/
theorem Edits.leastEdits_le {count : Nat} (h : Edits count source target) :
    leastEdits source target ≤ count := by
  induction h with
  | none text =>
    induction text with
    | nil => simp
    | cons c text ih =>
      rw [leastEdits_cons_cons, if_pos rfl]
      omega
  | @more _ source _ _ _ hedit ih =>
    have hstep := hedit.leastEdits_le source
    omega

end

/-- Texts that are read backwards need as many edits. -/
theorem leastEdits_reverse (source target : List Char) :
    leastEdits source.reverse target.reverse = leastEdits source target := by
  apply le_antisymm
  · exact (edits_leastEdits source target).reverse.leastEdits_le
  · have h := (edits_leastEdits source.reverse target.reverse).reverse
    rw [List.reverse_reverse, List.reverse_reverse] at h
    exact h.leastEdits_le

/-! ## The table of distances -/

/-- The distances from a text to longer and longer beginnings of another one, both reversed: the
characters in `seen` come before those that are still to be read. -/
def distancesFrom (source seen : List Char) : List Char → List Nat
  | [] => []
  | d :: rest => leastEdits source (d :: seen) :: distancesFrom source (d :: seen) rest

theorem nextRow_distancesFrom (c : Char) (source seen rest : List Char) :
    nextRow c (leastEdits source seen) (leastEdits (c :: source) seen)
      (distancesFrom source seen rest) rest = distancesFrom (c :: source) seen rest := by
  induction rest generalizing seen with
  | nil => simp [nextRow, distancesFrom]
  | cons d rest ih =>
    simp only [distancesFrom, nextRow]
    -- the new entry is the recursion itself, and it is the one before the next
    rw [← leastEdits_cons_cons, ih]

theorem distancesFrom_nil (seen rest : List Char) :
    distancesFrom [] seen rest = List.range' (seen.length + 1) rest.length := by
  induction rest generalizing seen with
  | nil => rfl
  | cons d rest ih =>
    rw [distancesFrom, ih, leastEdits_nil_left, List.length_cons, List.length_cons,
      List.range'_succ]

/-- A row of the table holds the distances to all beginnings of the target. -/
theorem distanceRow_eq (target source : List Char) :
    distanceRow target source =
      leastEdits source.reverse [] :: distancesFrom source.reverse [] target := by
  induction source using List.reverseRecOn with
  | nil =>
    rw [List.reverse_nil, distancesFrom_nil, leastEdits_nil_left, ← List.range'_succ]
    exact List.range_eq_range'
  | append_singleton source c ih =>
    rw [distanceRow] at ih ⊢
    rw [List.foldl_append, ih, List.reverse_append]
    have hfirst : leastEdits source.reverse [] + 1 = leastEdits (c :: source.reverse) [] := by simp
    simp only [List.foldl_cons, List.foldl_nil, hfirst, nextRow_distancesFrom]
    rfl

theorem getLastD_distancesFrom (source seen rest : List Char) :
    (leastEdits source seen :: distancesFrom source seen rest).getLastD 0 =
      leastEdits source (rest.reverse ++ seen) := by
  induction rest generalizing seen with
  | nil => rfl
  | cons d rest ih =>
    rw [distancesFrom, List.reverse_cons, List.append_assoc, List.singleton_append, ← ih]
    rfl

theorem editDistance_eq (source target : String) :
    editDistance source target = leastEdits source.toList target.toList := by
  rw [editDistance, distanceRow_eq, getLastD_distancesFrom, List.append_nil, leastEdits_reverse]

/-- The edit distance is the least number of insertions, deletions and replacements of a
character. -/
theorem editDistance_isLeast (source target : String) :
    IsLeast {count | Edits count source.toList target.toList} (editDistance source target) := by
  rw [editDistance_eq]
  exact ⟨edits_leastEdits _ _, fun _ h => h.leastEdits_le⟩

end ManifestModules.Text
