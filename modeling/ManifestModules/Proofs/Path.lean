import ManifestModules.Path
import ManifestModules.Proofs.Text.Split
import Mathlib.Data.List.Induction
import Mathlib.Logic.Basic

/-!
# Canonical paths

The steps of a path can be read back from its text, so that canonical spellings are equal just if
the paths are equal once their steps are taken. To take steps twice changes nothing, and steps that
are taken ahead lead to the same place from everywhere.
-/

namespace ManifestModules

namespace Path

/-- The steps are those that a text can be read into. -/
def Proper (steps : List String) : Prop :=
  ∀ step ∈ steps, step ≠ "" ∧ step ≠ "." ∧ '/' ∉ step.toList

theorem proper_ofString (s : String) : Proper (ofString s).steps := by
  intro step hstep
  obtain ⟨hsplit, hkept⟩ := List.mem_filter.1 hstep
  simp only [ne_eq, decide_not, Bool.and_eq_true, Bool.not_eq_true', decide_eq_false_iff_not]
    at hkept
  exact ⟨hkept.1, hkept.2, Text.separator_notMem_of_mem_split hsplit⟩

theorem split_intercalate {steps : List String} (h : Proper steps) (hne : steps ≠ []) :
    Text.split '/' ("/".intercalate steps) = steps := by
  induction steps with
  | nil => exact absurd rfl hne
  | cons step rest ih =>
    obtain ⟨hstep, hrest⟩ := List.forall_mem_cons.1 h
    cases rest with
    | nil => simpa using Text.split_of_notMem hstep.2.2
    | cons next rest =>
      rw [String.intercalate_cons_cons]
      have hsplit := Text.split_append_of_notMem hstep.2.2 ("/".intercalate (next :: rest))
      exact hsplit.trans (congrArg (step :: ·) (ih hrest (by simp)))

theorem head_intercalate_ne {steps : List String} (h : Proper steps) :
    (['/'].intercalate (steps.map String.toList)).head? ≠ some '/' := by
  cases steps with
  | nil => simp
  | cons step rest =>
    obtain ⟨⟨hempty, -, hslash⟩, -⟩ := List.forall_mem_cons.1 h
    have hne : step.toList ≠ [] := by simpa using hempty
    obtain ⟨c, cs, hcs⟩ := List.exists_cons_of_ne_nil hne
    have hc : c ≠ '/' := by
      rintro rfl
      simp [hcs] at hslash
    cases rest <;> simpa [hcs] using hc

theorem split_rooted (text : String) :
    Text.split '/' ("/" ++ text) = "" :: Text.split '/' text := by
  have hslash : '/' ∉ "".toList := by simp
  simpa using Text.split_append_of_notMem hslash text

/-- A path is read back from its text. -/
theorem ofString_render {path : Path} (h : Proper path.steps) : ofString path.render = path := by
  rcases path with ⟨absolute, steps⟩
  simp only at h
  have hkept : ∀ step ∈ steps, step ≠ "" ∧ step ≠ "." := by
    intro step hstep
    exact ⟨(h step hstep).1, (h step hstep).2.1⟩
  by_cases hsteps : steps = []
  · subst hsteps
    cases absolute <;> rfl
  · have hsplit := split_intercalate h hsteps
    cases absolute with
    | true => simpa [ofString, render, split_rooted, hsplit] using hkept
    | false => simpa [ofString, render, hsteps, hsplit, head_intercalate_ne h] using hkept

/-! ## Taking steps -/

section

variable {absolute : Bool} {taken steps : List String} {step : String}

/-- The steps so far, last one first, when they are all taken: nothing can be undone any more. -/
def Settled (absolute : Bool) : List String → Prop
  | [] => True
  | step :: before =>
    (step = ".." → absolute = false ∧ ∀ other ∈ before, other = "..") ∧ Settled absolute before

theorem settled_of_parents (h : ∀ step ∈ taken, step = "..") : Settled false taken := by
  induction taken with
  | nil => trivial
  | cons step before ih =>
    obtain ⟨-, hbefore⟩ := List.forall_mem_cons.1 h
    exact ⟨fun _ => ⟨rfl, hbefore⟩, ih hbefore⟩

theorem Settled.take (h : Settled absolute taken) (step : String) :
    Settled absolute (take absolute taken step) := by
  by_cases hstep : step = ".."
  · cases taken with
    | nil => cases absolute <;> simp [Path.take, hstep, Settled]
    | cons last before =>
      obtain ⟨hlast, hbefore⟩ := h
      by_cases hparent : last = ".."
      · obtain ⟨rfl, hall⟩ := hlast hparent
        simp only [Path.take, hstep, hparent, if_true]
        apply settled_of_parents
        simpa using hall
      · simpa [Path.take, hstep, hparent] using hbefore
  · simpa [Path.take, hstep, Settled] using h

theorem Settled.foldl_take (h : Settled absolute taken) (steps : List String) :
    Settled absolute (steps.foldl (Path.take absolute) taken) := by
  induction steps generalizing taken with
  | nil => exact h
  | cons step rest ih => exact ih (h.take step)

theorem Settled.take_last (h : Settled absolute (step :: taken)) :
    Path.take absolute taken step = step :: taken := by
  by_cases hstep : step = ".."
  · obtain ⟨rfl, hall⟩ := h.1 hstep
    cases taken with
    | nil => simp [Path.take, hstep]
    | cons last before => simp [Path.take, hstep, hall last]
  · simp [Path.take, hstep]

/-- Settled steps are taken as they are. -/
theorem Settled.foldl_reverse (h : Settled absolute taken) :
    taken.reverse.foldl (Path.take absolute) [] = taken := by
  induction taken with
  | nil => rfl
  | cons step before ih =>
    rw [List.reverse_cons, List.foldl_append, ih h.2]
    exact h.take_last

/-- One more step from anywhere, whether the step before it is undone at once or later. -/
theorem foldl_take_reverse (absolute : Bool) (start taken : List String) (step : String) :
    (take false taken step).reverse.foldl (take absolute) start =
      take absolute (taken.reverse.foldl (take absolute) start) step := by
  by_cases hstep : step = ".."
  · cases taken with
    | nil => simp [take, hstep]
    | cons last before =>
      by_cases hparent : last = ".."
      · simp [take, hstep, hparent]
      · simp [take, hstep, hparent]
  · simp [take, hstep]

/-- Steps may be taken ahead, as far as they stay at the same place. -/
theorem foldl_take_ahead (absolute : Bool) (start steps : List String) :
    (steps.foldl (take false) []).reverse.foldl (take absolute) start =
      steps.foldl (take absolute) start := by
  induction steps using List.reverseRecOn with
  | nil => rfl
  | append_singleton steps step ih =>
    rw [List.foldl_append, List.foldl_append, List.foldl_cons, List.foldl_nil, List.foldl_cons,
      List.foldl_nil, foldl_take_reverse, ih]

theorem mem_take {other : String} (h : other ∈ take absolute taken step) :
    other ∈ taken ∨ other = step := by
  by_cases hstep : step = ".."
  · cases taken with
    | nil => cases absolute <;> simp_all [take]
    | cons last before =>
      by_cases hparent : last = ".." <;> simp_all [take]
  · simpa [take, hstep, or_comm] using h

theorem proper_foldl_take (htaken : Proper taken) (hsteps : Proper steps) :
    Proper (steps.foldl (take absolute) taken) := by
  induction steps generalizing taken with
  | nil => exact htaken
  | cons step rest ih =>
    obtain ⟨hstep, hrest⟩ := List.forall_mem_cons.1 hsteps
    apply ih _ hrest
    intro other hother
    rcases mem_take hother with hother | rfl
    · exact htaken other hother
    · exact hstep

end

/-! ## Normal paths -/

theorem proper_normalize {path : Path} (h : Proper path.steps) : Proper path.normalize.steps := by
  have hnil : Proper [] := by simp [Proper]
  have htaken : Proper (path.steps.foldl (take path.absolute) []) := proper_foldl_take hnil h
  simpa [Proper, normalize] using htaken

theorem normalize_normalize (path : Path) : path.normalize.normalize = path.normalize := by
  have hnil : Settled path.absolute [] := trivial
  have hsettled := hnil.foldl_take path.steps
  simp [normalize, hsettled.foldl_reverse]

/-- A path may be normalized before it is followed from a base. -/
theorem normalize_join_normalize (base path : Path) :
    (base.join path.normalize).normalize = (base.join path).normalize := by
  rcases path with ⟨absolute, steps⟩
  cases absolute with
  | true => exact normalize_normalize ⟨true, steps⟩
  | false =>
    simp only [join, normalize, Bool.false_eq_true, if_false, List.foldl_append, foldl_take_ahead]

theorem proper_join {base path : Path} (hbase : Proper base.steps) (hpath : Proper path.steps) :
    Proper (base.join path).steps := by
  rw [join]
  split
  · exact hpath
  · exact fun step hstep => (List.mem_append.1 hstep).elim (hbase step) (hpath step)

theorem proper_directory {path : Path} (h : Proper path.steps) : Proper path.directory.steps := by
  rw [directory]
  split
  · simp [Proper]
  · exact fun step hstep => h step (List.dropLast_subset _ hstep)

end Path

/-- The canonical spelling is that of the normal path. -/
theorem normalizePath_render {path : Path} (h : Path.Proper path.steps) :
    normalizePath path.normalize.render = path.normalize.render := by
  rw [normalizePath, Path.ofString_render (Path.proper_normalize h), Path.normalize_normalize]

theorem normalizePath_normalizePath (path : String) :
    normalizePath (normalizePath path) = normalizePath path :=
  normalizePath_render (Path.proper_ofString path)

/-- What an import path means is told by its canonical spelling. -/
theorem resolveRelativePath_normalizePath (root path : String) :
    resolveRelativePath root (normalizePath path) = resolveRelativePath root path := by
  rw [resolveRelativePath, normalizePath,
    Path.ofString_render (Path.proper_normalize (Path.proper_ofString path)),
    Path.normalize_join_normalize]
  rfl

/-- A resolved path is spelled canonically. -/
theorem normalizePath_resolveRelativePath (root path : String) :
    normalizePath (resolveRelativePath root path) = resolveRelativePath root path :=
  normalizePath_render (Path.proper_join (Path.proper_directory (Path.proper_ofString root))
    (Path.proper_ofString path))

end ManifestModules
