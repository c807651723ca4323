import ManifestModules.Proofs.Graph.Rows

/-!
# Outlines with a limit

An outline with a limit is cut out of the full one, line by line. The lines above the limit stay as
they are, those below it go, and one line takes their place wherever a path at the limit has imports
that the full outline goes into.
-/

namespace ManifestModules.Graph

open Outline

/-- The line that stands for all that hangs below a line, whose path has imports and is not one of
those above it. -/
def ellipsis (graph : Graph) (row : Row) : List Row :=
  match row.target? with
  | none => []
  | some path =>
    if path ∉ row.above ∧ graph.directImports path ≠ [] then
      [⟨path :: row.above, row.deeper, true, .elided⟩]
    else []

def cut (graph : Graph) (limit : Nat) (row : Row) : List Row :=
  if limit < row.level then []
  else if row.level = limit then row :: graph.ellipsis row
  else [row]

section

variable {row : Row}

mutual

/-- Remarks belong to the line above them, which may be the one just above the branches. -/
theorem le_level_of_mem_rows (above : List String) (margin : String) (last : Bool) :
    (branch : Outline) → row ∈ branch.rows above margin last → above.length ≤ row.level + 1
  | .imported name path below, h => by
    rw [Outline.rows, List.mem_cons] at h
    rcases h with rfl | h
    · exact Nat.le_succ _
    · have hbelow := le_level_of_mem_listRows _ _ below h
      rw [List.length_cons] at hbelow
      omega
  | .circular, h | .elided, h => by
    obtain rfl := List.mem_singleton.1 h
    simp only [Row.level]
    omega

theorem le_level_of_mem_listRows (above : List String) (margin : String) :
    (branches : List Outline) → row ∈ listRows above margin branches → above.length ≤ row.level + 1
  | [], h => by simp [listRows] at h
  | branch :: rest, h => by
    rw [listRows, List.mem_append] at h
    exact h.elim (le_level_of_mem_rows above margin _ branch)
      (le_level_of_mem_listRows above margin rest)

end

variable {above : List String} {margin : String} {branches : List Outline} {α : Type} {l : List α}

theorem exists_of_mem_listRows (h : row ∈ listRows above margin branches) :
    ∃ branch ∈ branches, ∃ last, row ∈ branch.rows above margin last := by
  induction branches with
  | nil => simp [listRows] at h
  | cons branch rest ih =>
    rw [listRows, List.mem_append] at h
    rcases h with h | h
    · exact ⟨branch, List.mem_cons_self, _, h⟩
    · obtain ⟨other, hother, last, hrow⟩ := ih h
      exact ⟨other, List.mem_cons_of_mem _ hother, last, hrow⟩

theorem rows_subset_listRows (above : List String) (margin : String) {branch : Outline}
    (h : branch ∈ branches) :
    ∃ last, branch.rows above margin last ⊆ listRows above margin branches := by
  induction branches with
  | nil => simp at h
  | cons first rest ih =>
    rw [listRows]
    rcases List.mem_cons.1 h with rfl | h
    · exact ⟨_, List.subset_append_left _ _⟩
    · obtain ⟨last, hsubset⟩ := ih h
      exact ⟨last, List.Subset.trans hsubset (List.subset_append_right _ _)⟩

/-- What holds for the lines of each branch holds for all lines. -/
theorem listRows_map_eq_flatMap {f g : α → Outline} {change : Row → List Row}
    (h : ∀ a ∈ l, ∀ last,
      (f a).rows above margin last = ((g a).rows above margin last).flatMap change) :
    listRows above margin (l.map f) = (listRows above margin (l.map g)).flatMap change := by
  induction l with
  | nil => simp [listRows]
  | cons a rest ih =>
    obtain ⟨ha, hrest⟩ := List.forall_mem_cons.1 h
    have hlast : (rest.map f).isEmpty = (rest.map g).isEmpty := by simp
    rw [List.map_cons, List.map_cons, listRows, listRows, List.flatMap_append, ih hrest, ha, hlast]

end

variable {graph : Graph} {limit fuel : Nat} {root path margin : String} {above : List String}
  {row : Row}

theorem cut_of_ellipsis_eq_nil (hlevel : row.level ≤ limit) (h : graph.ellipsis row = []) :
    graph.cut limit row = [row] := by
  simp [cut, h, Nat.not_lt.2 hlevel]

theorem cut_of_lt (hlevel : limit < row.level) : graph.cut limit row = [] :=
  if_pos hlevel

/-- The lines below a path belong to its imports, or are still deeper. -/
theorem length_le_level (h : row ∈ listRows above margin (graph.branches none fuel above path)) :
    above.length ≤ row.level := by
  cases fuel with
  | zero => simp [branches, listRows] at h
  | succ fuel =>
    rw [branches_imports rfl] at h
    obtain ⟨_, hbranch, last, hrow⟩ := exists_of_mem_listRows h
    obtain ⟨edge, -, rfl⟩ := List.mem_map.1 hbranch
    rw [branch, Outline.rows, List.mem_cons] at hrow
    rcases hrow with rfl | hrow
    · exact Nat.le_refl _
    · exact Nat.le_of_succ_le_succ (le_level_of_mem_listRows _ _ _ hrow)

theorem ellipsis_eq_nil (htarget : row.target? = some path)
    (h : path ∈ row.above ∨ graph.directImports path = []) : graph.ellipsis row = [] := by
  simp only [ellipsis, htarget]
  exact if_neg fun hgoes => h.elim hgoes.1 hgoes.2

theorem level_of_target (htarget : row.target? = some path) : row.level = row.above.length := by
  rcases row with ⟨above, margin, last, item⟩
  cases item with
  | root | imported => rfl
  | circular | elided => cases htarget

theorem cut_of_lt_limit (htarget : row.target? = some path) (hlimit : row.above.length < limit) :
    graph.cut limit row = [row] := by
  have hlevel := level_of_target htarget
  rw [cut, if_neg (by omega), if_neg (by omega)]

/-- The remark on a repeated path stays with its line. -/
theorem cut_circular {name : String} {last : Bool} (hagain : path ∈ above)
    (hlimit : above.length ≤ limit) :
    let row : Row := ⟨above, margin, last, .imported name path⟩
    let remark : Row := ⟨path :: above, row.deeper, true, .circular⟩
    [row, remark].flatMap (graph.cut limit) = [row, remark] := by
  intro row remark
  have hrow : graph.cut limit row = [row] :=
    cut_of_ellipsis_eq_nil hlimit (ellipsis_eq_nil rfl (.inl hagain))
  have hremark : graph.cut limit remark = [remark] := cut_of_ellipsis_eq_nil hlimit rfl
  rw [List.flatMap_cons, List.flatMap_cons, List.flatMap_nil, hrow, hremark]
  rfl

/-- Only one line is left of what hangs below a line at the limit. -/
theorem rows_at_limit (hgraph : graph.WellFormed) (htarget : row.target? = some path)
    (hlimit : row.above.length = limit) (hway : Way graph root (path :: row.above))
    (hfuel : (path :: row.above).length + fuel = graph.nodes.length + 1) :
    row :: listRows (path :: row.above) row.deeper
        (graph.branches (some limit) fuel (path :: row.above) path) =
      graph.cut limit row ++ (listRows (path :: row.above) row.deeper
        (graph.branches none fuel (path :: row.above) path)).flatMap (graph.cut limit) := by
  have hlevel := level_of_target htarget
  have hbelow : (listRows (path :: row.above) row.deeper
      (graph.branches none fuel (path :: row.above) path)).flatMap (graph.cut limit) = [] := by
    rw [List.flatMap_eq_nil_iff]
    intro other hother
    have hdeep := length_le_level hother
    rw [List.length_cons] at hdeep
    exact cut_of_lt (by omega)
  have hcut : graph.cut limit row = row :: graph.ellipsis row := by
    simp [cut, hlevel, hlimit]
  rw [hbelow, hcut, List.append_nil]
  congr 1
  by_cases himports : graph.directImports path = []
  · rw [branches_leaf himports, ellipsis_eq_nil htarget (.inr himports), listRows]
  · obtain ⟨fuel, rfl⟩ := Nat.exists_eq_add_one.2 (hway.fuel_pos hgraph himports hfuel)
    have hdeep : (some limit).any (· < (path :: row.above).length) = true := by
      simp [← hlimit]
    have hfresh : path ∉ row.above := (List.nodup_cons.1 hway.nodup).1
    rw [branches_elided himports hdeep]
    simp [ellipsis, htarget, hfresh, himports, listRows, Outline.rows]

/-- The limit cuts a line together with all that hangs below it. -/
theorem rows_limited (hgraph : graph.WellFormed) (htarget : row.target? = some path)
    (hlimit : row.above.length ≤ limit) (hway : Way graph root (path :: row.above))
    (hfuel : (path :: row.above).length + fuel = graph.nodes.length + 1) :
    row :: listRows (path :: row.above) row.deeper
        (graph.branches (some limit) fuel (path :: row.above) path) =
      graph.cut limit row ++ (listRows (path :: row.above) row.deeper
        (graph.branches none fuel (path :: row.above) path)).flatMap (graph.cut limit) := by
  induction fuel generalizing row path with
  | zero =>
    rcases Nat.eq_or_lt_of_le hlimit with hat | hbefore
    · exact rows_at_limit hgraph htarget hat hway hfuel
    · rw [branches, branches, listRows, List.flatMap_nil, List.append_nil,
        cut_of_lt_limit htarget hbefore]
  | succ fuel ih =>
    rcases Nat.eq_or_lt_of_le hlimit with hat | hbefore
    · exact rows_at_limit hgraph htarget hat hway hfuel
    have hshallow : (some limit).any (· < (path :: row.above).length) = false := by
      simpa using Nat.succ_le_of_lt hbefore
    rw [cut_of_lt_limit htarget hbefore, List.singleton_append, branches_imports hshallow,
      branches_imports rfl]
    congr 1
    apply listRows_map_eq_flatMap
    rintro ⟨name, target⟩ hedge last
    by_cases hagain : target ∈ path :: row.above
    · rw [rows_branch_circular last hagain, rows_branch_circular last hagain]
      exact (cut_circular hagain (Nat.succ_le_of_lt hbefore)).symm
    · rw [rows_branch last hagain, rows_branch last hagain, List.flatMap_cons]
      refine ih rfl (Nat.succ_le_of_lt hbefore) (hway.push hgraph hedge hagain) ?_
      simp only [List.length_cons] at hfuel ⊢
      omega

theorem rows_limited_root (hgraph : graph.WellFormed) (root : String) (limit : Nat) :
    graph.rows root (some limit) = (graph.rows root none).flatMap (graph.cut limit) := by
  rw [rows, rows, List.flatMap_cons]
  apply rows_limited hgraph rfl (Nat.zero_le limit) (.start graph root)
  simp [Nat.add_comm]

/-- Nothing is cut if no import lies deeper than the limit. -/
theorem branches_eq_of_level_le (h : ∀ row ∈ listRows above margin
      (graph.branches none fuel above path), ∀ name target, row.item = .imported name target →
      row.level ≤ limit) :
    graph.branches (some limit) fuel above path = graph.branches none fuel above path := by
  induction fuel generalizing above path margin with
  | zero => rfl
  | succ fuel ih =>
    rw [branches_imports rfl] at h
    by_cases himports : graph.directImports path = []
    · rw [branches_leaf himports, branches_leaf himports]
    have heach (edge : String × String) (hedge : edge ∈ graph.directImports path) :
        ∃ last, ∀ row ∈ (graph.branch none fuel above edge).rows above margin last,
          ∀ name target, row.item = .imported name target → row.level ≤ limit := by
      obtain ⟨last, hsubset⟩ := rows_subset_listRows above margin (List.mem_map_of_mem hedge)
      exact ⟨last, fun row hrow => h row (hsubset hrow)⟩
    have hshallow : (some limit).any (· < above.length) = false := by
      obtain ⟨edge, hedge⟩ := List.exists_mem_of_ne_nil _ himports
      obtain ⟨last, hrows⟩ := heach edge hedge
      rw [branch, Outline.rows] at hrows
      have hlevel : above.length ≤ limit := hrows _ List.mem_cons_self edge.1 edge.2 rfl
      simpa using hlevel
    rw [branches_imports hshallow, branches_imports rfl]
    apply List.map_congr_left
    intro edge hedge
    rw [branch, branch]
    split_ifs with hagain
    · rfl
    · obtain ⟨last, hrows⟩ := heach edge hedge
      rw [rows_branch last hagain] at hrows
      rw [ih fun row hrow => hrows row (List.mem_cons_of_mem _ hrow)]

/-- The outline with a limit is the full one, line by line cut at the limit. Imports that lie deeper
are left out with all that hangs below them; below a line at the limit, which may be the root, one
line stands for its imports if there are any and its path is none of those above it. Without deeper
imports the limit changes nothing. -/
theorem outline_limit (edges : List ImportEdge) (root : String) (limit : Nat) :
    let graph := empty.addAll edges
    let full := graph.rows root none
    graph.outline root none = Row.render full ∧
    graph.outline root (some limit) = Row.render (full.flatMap (graph.cut limit)) ∧
    ((∀ row ∈ full, ∀ name path, row.item = .imported name path → row.level ≤ limit) →
      graph.outline root (some limit) = graph.outline root none) := by
  intro graph full
  have hgraph : graph.WellFormed := WellFormed.empty.addAll edges
  refine ⟨outline_eq_render graph root none, ?_, fun hlevel => ?_⟩
  · rw [outline_eq_render, rows_limited_root hgraph]
  · have hbranches : graph.branches (some limit) graph.nodes.length [root] root =
        graph.branches none graph.nodes.length [root] root :=
      branches_eq_of_level_le fun row hrow => hlevel row (List.mem_cons_of_mem _ hrow)
    rw [outline, outline, hbranches]

example :
    (empty.addAll [⟨"a", "b", "b"⟩, ⟨"b", "a", "a"⟩, ⟨"b", "c", "c"⟩, ⟨"c", "d", "d"⟩]).outline "a"
      (some 2) = "a\n└── b: b\n    ├── a: a\n    │   └── (circular reference)\n" ++
      "    └── c: c\n        └── …\n" := by decide

end ManifestModules.Graph
