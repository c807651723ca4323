import ManifestModules.Proofs.Effect
import ManifestModules.Proofs.Text.Split
import ManifestModules.Template.Substitute

/-!
# Dotted paths

An identifier is its head and its segments with dots between them. Its path is walked one segment
after the other, so that a path can be cut anywhere: the second part goes on where the first one has
arrived, and only if it has.
-/

namespace ManifestModules.Template

variable {ident rest segment : String} {base value : Value} {segments : List String}

/-- The head of an identifier and its segments are all that stands between its dots. -/
theorem splitIdent_parts (ident : String) :
    (splitIdent ident).1 :: (splitIdent ident).2 = Text.split '.' ident := rfl

theorem splitIdent_append (ident rest : String) : splitIdent (ident ++ "." ++ rest) =
    ((splitIdent ident).1, (splitIdent ident).2 ++ Text.split '.' rest) := by
  have hsplit := Text.split_append '.' ident rest
  rw [← splitIdent_parts, ← splitIdent_parts, List.cons_append, List.cons.injEq] at hsplit
  exact Prod.ext hsplit.1 hsplit.2

theorem splitIdent_append_segment (ident : String) (h : '.' ∉ segment.toList) :
    splitIdent (ident ++ "." ++ segment) =
      ((splitIdent ident).1, (splitIdent ident).2 ++ [segment]) := by
  rw [splitIdent_append, Text.split_of_notMem h]

theorem indexPath_append (ident : String) (base : Value) (xs ys : List String) :
    indexPath ident base (xs ++ ys) =
      indexPath ident base xs >>= fun found => indexPath ident found ys := by
  induction xs generalizing base with
  | nil => rfl
  | cons segment xs ih =>
    rw [List.cons_append, indexPath, indexPath]
    cases step base segment with
    | ok next => exact ih next
    | error fault => rfl

/-- Where a path leads does not depend on what the identifier is called. -/
theorem indexPath_eq_ok :
    indexPath ident base segments = .ok value ↔ segments.foldlM step base = .ok value := by
  induction segments generalizing base with
  | nil => simp [indexPath, pure, Except.pure]
  | cons segment segments ih =>
    rw [indexPath, List.foldlM_cons, bind_eq_ok]
    cases hstep : step base segment with
    | ok next => simp [ih]
    | error fault => simp

theorem resolveParam_eq_ok {scope : String} {params : Entries} :
    resolveParam scope params ident = .ok value ↔
      ∃ base, params.lookup (splitIdent ident).1 = some base ∧
        (splitIdent ident).2.foldlM step base = .ok value := by
  rw [resolveParam]
  cases hlookup : params.lookup (splitIdent ident).1 with
  | none => simp [hlookup]
  | some base => simp [hlookup, indexPath_eq_ok]

/-- Paths compose. One more segment of an identifier is one more segment of its path, and nothing of
an identifier is lost. The two parts of a path are walked one after the other, and the first step
that fails is reported. So one more segment of an identifier is one more step from its value. -/
theorem dotted_compose :
    (∀ ident segment, '.' ∉ segment.toList → splitIdent (ident ++ "." ++ segment) =
      ((splitIdent ident).1, (splitIdent ident).2 ++ [segment])) ∧
    (∀ ident, ".".intercalate ((splitIdent ident).1 :: (splitIdent ident).2) = ident) ∧
    (∀ ident base xs ys, indexPath ident base (xs ++ ys) =
      indexPath ident base xs >>= fun found => indexPath ident found ys) ∧
    ∀ scope params ident segment value, '.' ∉ segment.toList →
      (resolveParam scope params (ident ++ "." ++ segment) = .ok value ↔
        ∃ found, resolveParam scope params ident = .ok found ∧ step found segment = .ok value) := by
  refine ⟨fun ident segment h => splitIdent_append_segment ident h, fun ident => ?_,
    indexPath_append, fun scope params ident segment value h => ?_⟩
  · exact Text.intercalate_split '.' ident
  · simp only [resolveParam_eq_ok, splitIdent_append_segment ident h, List.foldlM_append,
      List.foldlM_cons, List.foldlM_nil, bind_pure, bind_eq_ok]
    constructor
    · rintro ⟨base, hbase, found, hfound, hstep⟩
      exact ⟨found, ⟨base, hbase, hfound⟩, hstep⟩
    · rintro ⟨found, ⟨base, hbase, hfound⟩, hstep⟩
      exact ⟨base, hbase, found, hfound, hstep⟩

example : resolveParam defaultScope [("a", .list [.string "x", .string "y"])] "a.+01" =
    .ok (.string "y") := rfl

end ManifestModules.Template
