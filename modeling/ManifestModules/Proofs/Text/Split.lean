import ManifestModules.Text.Split

/-!
# The parts of a text

The parts between the occurrences of a separator do not have it, and together with it they give the
text back. A separator between two texts separates their parts.
-/

namespace ManifestModules.Text

variable {separator : Char} {part : List Char}

theorem splitAt_of_notMem (h : separator ∉ part) : splitAt separator part = (part, []) := by
  induction part with
  | nil => rfl
  | cons c part ih =>
    rw [List.mem_cons, not_or] at h
    simp [splitAt, ih h.2, Ne.symm h.1]

theorem splitAt_append (separator : Char) (part rest : List Char) :
    splitAt separator (part ++ separator :: rest) =
      ((splitAt separator part).1, (splitAt separator part).2 ++
        (splitAt separator rest).1 :: (splitAt separator rest).2) := by
  induction part with
  | nil => simp [splitAt]
  | cons c part ih => by_cases h : c = separator <;> simp [splitAt, ih, h]

theorem separator_notMem_splitAt (cs : List Char) :
    separator ∉ (splitAt separator cs).1 ∧
      ∀ part ∈ (splitAt separator cs).2, separator ∉ part := by
  induction cs with
  | nil => simp [splitAt]
  | cons c cs ih =>
    by_cases h : c = separator <;> simp_all [splitAt, eq_comm]

theorem separator_notMem_of_mem_split {s part : String} (h : part ∈ split separator s) :
    separator ∉ part.toList := by
  obtain ⟨chars, hchars, rfl⟩ := List.mem_map.1 h
  rw [String.toList_ofList]
  obtain ⟨hfirst, hrest⟩ := separator_notMem_splitAt s.toList
  rcases List.mem_cons.1 hchars with rfl | hchars
  · exact hfirst
  · exact hrest chars hchars

theorem split_of_notMem {s : String} (h : separator ∉ s.toList) : split separator s = [s] := by
  simp [split, splitAt_of_notMem h]

theorem split_append (separator : Char) (s t : String) :
    split separator (s ++ String.singleton separator ++ t) =
      split separator s ++ split separator t := by
  simp [split, splitAt_append]

theorem split_append_of_notMem {s : String} (h : separator ∉ s.toList) (t : String) :
    split separator (s ++ String.singleton separator ++ t) = s :: split separator t := by
  rw [split_append, split_of_notMem h, List.singleton_append]

theorem intercalate_splitAt (separator : Char) (cs : List Char) :
    [separator].intercalate ((splitAt separator cs).1 :: (splitAt separator cs).2) = cs := by
  induction cs with
  | nil => simp [splitAt]
  | cons c cs ih =>
    by_cases h : c = separator
    · subst h
      simp [splitAt, ih]
    · cases hrest : (splitAt separator cs).2 <;> simp_all [splitAt]

/-- Written with the separator between them, the parts give the text back. -/
theorem intercalate_split (separator : Char) (s : String) :
    (String.singleton separator).intercalate (split separator s) = s := by
  have hparts : String.toList ∘ String.ofList = id := funext fun cs => String.toList_ofList
  rw [← String.toList_inj, String.toList_intercalate, split, List.map_map, hparts, List.map_id,
    String.toList_singleton, intercalate_splitAt]

end ManifestModules.Text
