import ManifestModules.Proofs.Path

/-!
# Canonical paths that are joined

To join two paths is to write the second one behind the first, and its steps are then taken after
those of the first. Hence both paths may be normalized before they are joined. A normalized path
takes no step that could be left out: every step to the parent directory stands at its beginning.
-/

namespace ManifestModules

def IsAbsolute (path : String) : Prop :=
  path.toList.head? = some '/'

instance (path : String) : Decidable (IsAbsolute path) :=
  inferInstanceAs (Decidable (_ = _))

/-- A path followed from a base, as text. An absolute path is followed from everywhere. -/
def joinPath (base path : String) : String :=
  if IsAbsolute path then path
  else if base = "" ∨ base.toList.getLast? = some '/' then base ++ path
  else base ++ "/" ++ path

def IsEntry (part : String) : Prop :=
  part ≠ "" ∧ part ≠ "." ∧ part ≠ ".."

/-- No part of the path could be left out. -/
structure Reduced (path : String) : Prop where
  noCurrent : "." ∉ Text.split '/' path
  noReturn : (Text.split '/' path).Pairwise fun earlier later => IsEntry earlier → later ≠ ".."
  rooted : IsAbsolute path → ".." ∉ Text.split '/' path

namespace Path

/-! ## Joined paths -/

theorem absolute_ofString {path : String} : (ofString path).absolute = true ↔ IsAbsolute path := by
  simp [ofString, IsAbsolute]

theorem absolute_append {base : String} (h : base ≠ "") (rest : String) :
    (ofString (base ++ rest)).absolute = (ofString base).absolute := by
  have hne : base.toList ≠ [] := by simpa using h
  obtain ⟨c, cs, hbase⟩ := List.exists_cons_of_ne_nil hne
  simp [ofString, hbase]

/-- The steps of two paths with a slash between them. -/
theorem steps_append (base path : String) :
    (ofString (base ++ "/" ++ path)).steps = (ofString base).steps ++ (ofString path).steps := by
  have hsplit := Text.split_append '/' base path
  simp only [ofString, ← List.filter_append, ← hsplit]
  rfl

@[simp] theorem ofString_empty : ofString "" = ⟨false, []⟩ := rfl

/-- A slash at the end of a path leads nowhere. -/
theorem steps_append_slash (base : String) :
    (ofString (base ++ "/")).steps = (ofString base).steps := by
  have hsteps := steps_append base ""
  rwa [String.append_empty, ofString_empty, List.append_nil] at hsteps

theorem exists_append_slash {base : String} (h : base.toList.getLast? = some '/') :
    ∃ shorter, base = shorter ++ "/" := by
  obtain ⟨front, hfront⟩ := List.getLast?_eq_some_iff.1 h
  refine ⟨String.ofList front, String.toList_inj.1 ?_⟩
  simpa using hfront

/-- What is written behind a path adds its steps. -/
theorem ofString_append {base rest : String} {steps : List String} (h : base ≠ "")
    (hsteps : (ofString (base ++ rest)).steps = (ofString base).steps ++ steps) :
    ofString (base ++ rest) = { ofString base with steps := (ofString base).steps ++ steps } := by
  change _ = Path.mk (ofString base).absolute _
  rw [← absolute_append h rest, ← hsteps]

theorem ofString_joinPath (base path : String) :
    ofString (joinPath base path) = (ofString base).join (ofString path) := by
  rw [joinPath]
  by_cases hpath : IsAbsolute path
  · rw [if_pos hpath, join, if_pos (absolute_ofString.2 hpath)]
  rw [if_neg hpath, join, if_neg (mt absolute_ofString.1 hpath)]
  by_cases hempty : base = ""
  · have hrelative : (ofString path).absolute = false := by
      simpa using mt absolute_ofString.1 hpath
    rw [if_pos (.inl hempty), hempty, String.empty_append, ofString_empty, ← hrelative]
    rfl
  by_cases hslash : base.toList.getLast? = some '/'
  · rw [if_pos (.inr hslash)]
    apply ofString_append hempty
    obtain ⟨shorter, rfl⟩ := exists_append_slash hslash
    rw [steps_append, steps_append_slash]
  · rw [if_neg (by simp [hempty, hslash]), String.append_assoc]
    apply ofString_append hempty
    rw [← String.append_assoc, steps_append]

/-- The base of a path may be normalized before the path is followed from it. -/
theorem normalize_normalize_join (base path : Path) :
    (base.normalize.join path).normalize = (base.join path).normalize := by
  rw [join, join]
  split
  · rfl
  · have hnil : Settled base.absolute [] := trivial
    have hsettled := hnil.foldl_take base.steps
    simp [normalize, hsettled.foldl_reverse]

/-! ## Reduced paths -/

section

variable {absolute : Bool} {taken : List String}

theorem Settled.pairwise (h : Settled absolute taken) :
    taken.Pairwise fun later earlier => later = ".." → earlier = ".." := by
  induction taken with
  | nil => exact .nil
  | cons step before ih =>
    exact .cons (fun other hother hstep => (h.1 hstep).2 other hother) (ih h.2)

theorem Settled.parent_notMem (h : Settled true taken) : ".." ∉ taken := by
  induction taken with
  | nil => exact List.not_mem_nil
  | cons step before ih =>
    rw [List.mem_cons, not_or]
    refine ⟨fun hstep => ?_, ih h.2⟩
    exact Bool.noConfusion (h.1 hstep.symm).1

end

variable {path : Path}

/-- Between the slashes of a path stand its steps, apart from what is empty before them. -/
theorem split_render (h : Proper path.steps) : path.render = "." ∨
    ∃ blanks, (∀ part ∈ blanks, part = "") ∧
      Text.split '/' path.render = blanks ++ path.steps := by
  rcases path with ⟨absolute, steps⟩
  by_cases hsteps : steps = []
  · subst hsteps
    cases absolute with
    | true => exact .inr ⟨["", ""], by simp, rfl⟩
    | false => exact .inl rfl
  · have hsplit := split_intercalate h hsteps
    cases absolute with
    | true => exact .inr ⟨[""], by simp, by simp [render, split_rooted, hsplit]⟩
    | false => exact .inr ⟨[], by simp, by simp [render, hsteps, hsplit]⟩

theorem isAbsolute_render (h : Proper path.steps) :
    IsAbsolute path.render ↔ path.absolute = true := by
  rw [← absolute_ofString, ofString_render h]

theorem reduced_render (hproper : Proper path.steps)
    (hsettled : Settled path.absolute path.steps.reverse) :
    path.render = "." ∨ Reduced path.render := by
  rcases split_render hproper with hcurrent | ⟨blanks, hblanks, hsplit⟩
  · exact .inl hcurrent
  right
  constructor
  · rw [hsplit, List.mem_append, not_or]
    refine ⟨fun hmem => ?_, fun hmem => (hproper "." hmem).2.1 rfl⟩
    exact absurd (hblanks "." hmem) (by decide)
  · rw [hsplit, List.pairwise_append]
    refine ⟨?_, ?_, fun blank hblank _ _ hentry => absurd (hblanks blank hblank) hentry.1⟩
    · exact List.pairwise_of_forall_mem_list fun blank hblank _ _ hentry =>
        absurd (hblanks blank hblank) hentry.1
    · apply (List.pairwise_reverse.1 hsettled.pairwise).imp
      exact fun hparent hentry hreturn => hentry.2.2 (hparent hreturn)
  · intro habsolute
    rw [isAbsolute_render hproper] at habsolute
    rw [habsolute] at hsettled
    rw [hsplit, List.mem_append, not_or]
    refine ⟨fun hmem => absurd (hblanks ".." hmem) (by decide), ?_⟩
    simpa using hsettled.parent_notMem

end Path

/-- To join texts is to join the paths that are read from them. -/
theorem normalizePath_joinPath (base path : String) :
    normalizePath (joinPath base path) =
      ((Path.ofString base).join (Path.ofString path)).normalize.render := by
  rw [normalizePath, Path.ofString_joinPath]

theorem ofString_normalizePath (path : String) :
    Path.ofString (normalizePath path) = (Path.ofString path).normalize :=
  Path.ofString_render (Path.proper_normalize (Path.proper_ofString path))

/-- Normalized paths are canonical: to normalize one again changes nothing, paths may be normalized
before they are joined, whether a path is absolute stays the same, and no step is left that could be
left out. -/
theorem normalizePath_canonical (base path : String) :
    normalizePath (normalizePath base) = normalizePath base ∧
      normalizePath (joinPath base path) = normalizePath (joinPath (normalizePath base) path) ∧
      normalizePath (joinPath base path) = normalizePath (joinPath base (normalizePath path)) ∧
      (IsAbsolute (normalizePath base) ↔ IsAbsolute base) ∧
      (normalizePath base = "." ∨ Reduced (normalizePath base)) := by
  have hproper := Path.proper_normalize (Path.proper_ofString base)
  have hnil : Path.Settled (Path.ofString base).absolute [] := trivial
  have hsettled := hnil.foldl_take (Path.ofString base).steps
  refine ⟨normalizePath_normalizePath base, ?_, ?_, ?_, ?_⟩
  · simp only [normalizePath_joinPath, ofString_normalizePath, Path.normalize_normalize_join]
  · simp only [normalizePath_joinPath, ofString_normalizePath, Path.normalize_join_normalize]
  · rw [normalizePath, Path.isAbsolute_render hproper, ← Path.absolute_ofString]
    rfl
  · apply Path.reduced_render hproper
    simpa [Path.normalize] using hsettled

example : normalizePath (joinPath "a//./b/" "../../../c/.") = "../c" := by decide

end ManifestModules
