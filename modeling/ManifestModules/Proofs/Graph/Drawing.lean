import ManifestModules.Proofs.Graph.Rows

/-!
# Drawing an outline with a stack

An outline can be drawn line by line, with one stack of the paths on the way to where the drawing
stands: a path is pushed before its imports are drawn and popped afterwards. The rules of drawing
bound nothing, and the graph may have any cycles. Yet every drawing has a finite run, because the
paths on the stack are different ones, and what it leaves behind is the outline.
-/

namespace ManifestModules.Graph

open Outline

structure Drawing where
  lines : List String
  /-- The paths on the way, innermost first. -/
  stack : List String

namespace Drawing

def add (drawing : Drawing) (line : String) : Drawing :=
  { drawing with lines := drawing.lines ++ [line] }

def push (drawing : Drawing) (path : String) : Drawing :=
  { drawing with stack := path :: drawing.stack }

def pop (drawing : Drawing) : Drawing :=
  { drawing with stack := drawing.stack.tail }

def text (drawing : Drawing) : String :=
  String.join (drawing.lines.map (· ++ "\n"))

end Drawing

/-- A call to draw what a path imports, with the stack as the call finds and as it leaves it. -/
structure DrawCall where
  path : String
  depth : Nat
  stack : List String
  left : List String

def importLine (margin : String) (last : Bool) (name path : String) : String :=
  margin ++ (if last then "└── " else "├── ") ++ s!"{name}: {path}"

def innerMargin (margin : String) (last : Bool) : String :=
  margin ++ if last then "    " else "│   "

section

variable (graph : Graph) (maxDepth : Option Nat)

mutual

/-- A run of drawing what a path imports, with the calls on the way. -/
inductive Draws : String → String → Nat → Drawing → Drawing → List DrawCall → Prop
  | leaf {path margin : String} {depth : Nat} {start : Drawing}
    (imports : graph.directImports path = []) :
    Draws path margin depth start start [⟨path, depth, start.stack, start.stack⟩]
  | elided {path margin : String} {depth : Nat} {start : Drawing}
    (imports : graph.directImports path ≠ []) (deep : maxDepth.any (· < depth) = true) :
    Draws path margin depth start (start.add (margin ++ "└── …"))
      [⟨path, depth, start.stack, start.stack⟩]
  | drawn {path margin : String} {depth : Nat} {start finish : Drawing} {calls : List DrawCall}
    (imports : graph.directImports path ≠ []) (shallow : maxDepth.any (· < depth) = false)
    (draws : DrawsImports margin depth (graph.directImports path) start finish calls) :
    Draws path margin depth start finish (⟨path, depth, start.stack, finish.stack⟩ :: calls)

inductive DrawsImports : String → Nat → List (String × String) → Drawing → Drawing →
    List DrawCall → Prop
  | nil {margin : String} {depth : Nat} {start : Drawing} :
    DrawsImports margin depth [] start start []
  | circular {margin name target : String} {depth : Nat} {rest : List (String × String)}
    {start finish : Drawing} {calls : List DrawCall} (again : target ∈ start.stack)
    (draws : DrawsImports margin depth rest
      ((start.add (importLine margin rest.isEmpty name target)).add
        (innerMargin margin rest.isEmpty ++ "└── (circular reference)")) finish calls) :
    DrawsImports margin depth ((name, target) :: rest) start finish calls
  | entered {margin name target : String} {depth : Nat} {rest : List (String × String)}
    {start reached finish : Drawing} {calls more : List DrawCall} (fresh : target ∉ start.stack)
    (below : Draws target (innerMargin margin rest.isEmpty) (depth + 1)
      ((start.add (importLine margin rest.isEmpty name target)).push target) reached calls)
    (draws : DrawsImports margin depth rest reached.pop finish more) :
    DrawsImports margin depth ((name, target) :: rest) start finish (calls ++ more)

end

end

variable {graph : Graph} {maxDepth : Option Nat} {fuel : Nat} {root path margin : String}
  {above lines : List String}

mutual

theorem Draws.unique {path margin : String} {depth : Nat} {start finish finish' : Drawing}
    {calls calls' : List DrawCall} :
    Draws graph maxDepth path margin depth start finish calls →
    Draws graph maxDepth path margin depth start finish' calls' →
    finish = finish' ∧ calls = calls'
  | .leaf imports, h => by
    cases h with
    | leaf => exact ⟨rfl, rfl⟩
    | elided imports' | drawn imports' => exact absurd imports imports'
  | .elided imports deep, h => by
    cases h with
    | leaf imports' => exact absurd imports' imports
    | elided => exact ⟨rfl, rfl⟩
    | drawn _ shallow => cases deep.symm.trans shallow
  | .drawn imports shallow draws, h => by
    cases h with
    | leaf imports' => exact absurd imports' imports
    | elided _ deep => cases deep.symm.trans shallow
    | drawn _ _ draws' =>
      obtain ⟨rfl, rfl⟩ := draws.unique draws'
      exact ⟨rfl, rfl⟩

theorem DrawsImports.unique {margin : String} {depth : Nat} {imports : List (String × String)}
    {start finish finish' : Drawing} {calls calls' : List DrawCall} :
    DrawsImports graph maxDepth margin depth imports start finish calls →
    DrawsImports graph maxDepth margin depth imports start finish' calls' →
    finish = finish' ∧ calls = calls'
  | .nil, h => by
    cases h
    exact ⟨rfl, rfl⟩
  | .circular again draws, h => by
    cases h with
    | circular _ draws' => exact draws.unique draws'
    | entered fresh => exact absurd again fresh
  | .entered fresh below draws, h => by
    cases h with
    | circular again => exact absurd again fresh
    | entered _ below' draws' =>
      obtain ⟨rfl, rfl⟩ := below.unique below'
      obtain ⟨rfl, rfl⟩ := draws.unique draws'
      exact ⟨rfl, rfl⟩

end

/-- The stack of a call is a way from the root down to its path, not longer than there are nodes,
and the call leaves it as it was. -/
structure DrawCall.Sound (graph : Graph) (root : String) (call : DrawCall) : Prop where
  way : Way graph root call.stack
  top : call.stack.head? = some call.path
  depth : call.depth = call.stack.length
  bounded : call.depth ≤ max 1 graph.nodes.length
  restored : call.left = call.stack

theorem Way.sound (h : Way graph root (path :: above)) :
    DrawCall.Sound graph root
      ⟨path, (path :: above).length, path :: above, path :: above⟩ :=
  ⟨h, rfl, rfl, h.length_le, rfl⟩

/-- A run from one drawing to another one, all calls of which are sound. -/
def SoundRun (graph : Graph) (root : String) (runs : List DrawCall → Prop) : Prop :=
  ∃ calls, runs calls ∧ ∀ call ∈ calls, call.Sound graph root

theorem listLines_circular (margin : String) :
    listLines margin [.circular] = [margin ++ "└── (circular reference)"] :=
  congrArg (fun line => [line]) String.append_assoc

theorem listLines_elided (margin : String) :
    listLines margin [.elided] = [margin ++ "└── …"] :=
  congrArg (fun line => [line]) String.append_assoc

/-- The lines of an import, of what hangs below it, and of the imports that follow. -/
theorem listLines_branch (maxDepth : Option Nat) (fuel : Nat) (above : List String)
    (margin name target : String) (rest : List (String × String)) :
    listLines margin (((name, target) :: rest).map (graph.branch maxDepth fuel above)) =
      importLine margin rest.isEmpty name target ::
        (listLines (innerMargin margin rest.isEmpty) (if target ∈ above then [.circular]
          else graph.branches maxDepth fuel (target :: above) target) ++
        listLines margin (rest.map (graph.branch maxDepth fuel above))) := by
  have hlast : (rest.map (graph.branch maxDepth fuel above)).isEmpty = rest.isEmpty := by simp
  rw [List.map_cons, listLines, hlast, branch, Outline.lines]
  rfl

/-- Imports are drawn one after the other if those that are not on the stack can be entered. -/
theorem exists_drawsImports (margin : String) (lines : List String) (depth : Nat)
    (imports : List (String × String))
    (hbelow : ∀ edge ∈ imports, edge.2 ∉ above → ∀ margin lines,
      SoundRun graph root (Draws graph maxDepth edge.2 margin (depth + 1)
        ⟨lines, edge.2 :: above⟩ ⟨lines ++ listLines margin
          (graph.branches maxDepth fuel (edge.2 :: above) edge.2), edge.2 :: above⟩)) :
    SoundRun graph root (DrawsImports graph maxDepth margin depth imports ⟨lines, above⟩
      ⟨lines ++ listLines margin (imports.map (graph.branch maxDepth fuel above)), above⟩) := by
  induction imports generalizing lines with
  | nil =>
    refine ⟨[], ?_, by simp⟩
    rw [List.map_nil, listLines, List.append_nil]
    exact .nil
  | cons edge rest ih =>
    rcases edge with ⟨name, target⟩
    obtain ⟨hedge, hrest⟩ := List.forall_mem_cons.1 hbelow
    rw [listLines_branch]
    by_cases hagain : target ∈ above
    · obtain ⟨calls, hdraws, hsound⟩ :=
        ih (lines ++ [importLine margin rest.isEmpty name target] ++
          [innerMargin margin rest.isEmpty ++ "└── (circular reference)"]) hrest
      rw [if_pos hagain, listLines_circular, List.append_cons, ← List.append_assoc]
      exact ⟨calls, .circular hagain hdraws, hsound⟩
    · obtain ⟨calls, hbelow, hsound⟩ := hedge hagain (innerMargin margin rest.isEmpty)
        (lines ++ [importLine margin rest.isEmpty name target])
      obtain ⟨more, hdraws, hmore⟩ :=
        ih (lines ++ [importLine margin rest.isEmpty name target] ++ listLines
          (innerMargin margin rest.isEmpty)
          (graph.branches maxDepth fuel (target :: above) target)) hrest
      rw [if_neg hagain, List.append_cons, ← List.append_assoc]
      exact ⟨calls ++ more, .entered hagain hbelow hdraws,
        List.forall_mem_append.2 ⟨hsound, hmore⟩⟩

theorem draws_leaf (lines : List String) (hway : Way graph root (path :: above))
    (h : graph.directImports path = []) :
    SoundRun graph root (Draws graph maxDepth path margin (path :: above).length
      ⟨lines, path :: above⟩
      ⟨lines ++ listLines margin (graph.branches maxDepth fuel (path :: above) path),
        path :: above⟩) := by
  rw [branches_leaf h, listLines, List.append_nil]
  exact ⟨_, .leaf h, List.forall_mem_singleton.2 hway.sound⟩

/-- Every path on a way is drawn, and the stack is as it was. -/
theorem exists_draws (maxDepth : Option Nat) (margin : String) (hgraph : graph.WellFormed)
    (lines : List String) (hway : Way graph root (path :: above))
    (hfuel : (path :: above).length + fuel = graph.nodes.length + 1) :
    SoundRun graph root (Draws graph maxDepth path margin (path :: above).length
      ⟨lines, path :: above⟩
      ⟨lines ++ listLines margin (graph.branches maxDepth fuel (path :: above) path),
        path :: above⟩) := by
  induction fuel generalizing path above margin lines with
  | zero =>
    apply draws_leaf lines hway
    by_contra himports
    exact absurd (hway.fuel_pos hgraph himports hfuel) (Nat.lt_irrefl 0)
  | succ fuel ih =>
    by_cases himports : graph.directImports path = []
    · exact draws_leaf lines hway himports
    cases hdepth : maxDepth.any (· < (path :: above).length) with
    | true =>
      rw [branches_elided himports hdepth, listLines_elided]
      exact ⟨_, .elided himports hdepth, List.forall_mem_singleton.2 hway.sound⟩
    | false =>
      obtain ⟨calls, hdraws, hsound⟩ := exists_drawsImports margin lines (path :: above).length
        (graph.directImports path) fun edge hedge hfresh margin lines => by
          apply ih margin lines (hway.push hgraph hedge hfresh)
          simp only [List.length_cons] at hfuel ⊢
          omega
      rw [branches_imports hdepth]
      exact ⟨_, .drawn himports hdepth hdraws, List.forall_mem_cons.2 ⟨hway.sound, hsound⟩⟩

/-! ## Remarks on repeated paths -/

/-- A line that leads to one of the paths above it has a remark on the next line. -/
def Remarked (rows : List Row) : Prop :=
  ∀ row after, row :: after <:+ rows → ∀ path, row.target? = some path → path ∈ row.above →
    after.head? = some ⟨path :: row.above, row.deeper, true, .circular⟩

namespace Remarked

variable {rows more : List Row} {row : Row}

theorem nil : Remarked [] := by
  intro row after h
  simp at h

theorem tail (h : Remarked (row :: rows)) : Remarked rows :=
  fun other after hsuffix => h other after (hsuffix.trans (List.suffix_cons row rows))

theorem cons (h : Remarked rows) (hrow : ∀ path, row.target? = some path → path ∈ row.above →
    rows.head? = some ⟨path :: row.above, row.deeper, true, .circular⟩) :
    Remarked (row :: rows) := by
  intro other after hsuffix
  rcases List.suffix_cons_iff.1 hsuffix with heq | hsuffix
  · obtain ⟨rfl, rfl⟩ := List.cons.inj heq
    exact hrow
  · exact h other after hsuffix

theorem singleton (h : row.target? = none) : Remarked [row] := by
  apply nil.cons
  intro path htarget
  rw [h] at htarget
  cases htarget

theorem append (h : Remarked rows) (hmore : Remarked more) : Remarked (rows ++ more) := by
  induction rows with
  | nil => exact hmore
  | cons row rows ih =>
    refine (ih h.tail).cons fun path htarget hagain => ?_
    have hhead := h row rows List.suffix_rfl path htarget hagain
    rw [List.head?_append, hhead, Option.some_or]

end Remarked

theorem remarked_listRows {branches : List Outline}
    (h : ∀ branch ∈ branches, ∀ last, Remarked (branch.rows above margin last)) :
    Remarked (listRows above margin branches) := by
  induction branches with
  | nil => exact .nil
  | cons branch rest ih =>
    obtain ⟨hbranch, hrest⟩ := List.forall_mem_cons.1 h
    rw [listRows]
    exact (hbranch _).append (ih hrest)

theorem remarked_branches : Remarked (listRows above margin
    (graph.branches maxDepth fuel above path)) := by
  induction fuel generalizing above margin path with
  | zero => exact .nil
  | succ fuel ih =>
    by_cases himports : graph.directImports path = []
    · rw [branches_leaf himports]
      exact .nil
    cases hdepth : maxDepth.any (· < above.length) with
    | true =>
      rw [branches_elided himports hdepth]
      exact .singleton rfl
    | false =>
      rw [branches_imports hdepth]
      apply remarked_listRows
      intro branch hbranch last
      obtain ⟨edge, -, rfl⟩ := List.mem_map.1 hbranch
      by_cases hagain : edge.2 ∈ above
      · rw [rows_branch_circular last hagain]
        apply (Remarked.singleton rfl).cons
        rintro _ ⟨⟩ -
        rfl
      · rw [rows_branch last hagain]
        apply ih.cons
        rintro _ ⟨⟩ hmem
        exact absurd hmem hagain

/-- Drawing an outline ends on every graph, whatever cycles it has and whether the root is one of
its nodes or not. It has exactly one run, which leaves just the lines of the outline. In every call
the stack is a way without repetitions from the root down, not longer than there are nodes, and it
is as it was when the call returns. On the ways down through the outline, a path comes again only on
a line that has the remark on it right below. -/
theorem outline_draws (edges : List ImportEdge) (root : String) (maxDepth : Option Nat) :
    let graph := empty.addAll edges
    let start : Drawing := ⟨[root], [root]⟩
    let finish : Drawing := ⟨(graph.rows root maxDepth).map Row.text, [root]⟩
    (∃ calls, Draws graph maxDepth root "" 1 start finish calls ∧
      (∀ call ∈ calls, call.Sound graph root) ∧
      ∀ finish' calls', Draws graph maxDepth root "" 1 start finish' calls' →
        finish' = finish ∧ calls' = calls) ∧
    finish.text = graph.outline root maxDepth ∧ Remarked (graph.rows root maxDepth) := by
  intro graph start finish
  have hgraph : graph.WellFormed := WellFormed.empty.addAll edges
  obtain ⟨calls, hdraws, hsound⟩ : SoundRun graph root
      (Draws graph maxDepth root "" 1 start finish) := by
    have hruns := exists_draws maxDepth "" hgraph [root] (.start graph root)
      (Nat.add_comm 1 graph.nodes.length)
    rwa [listLines_eq [root]] at hruns
  refine ⟨⟨calls, hdraws, hsound, fun finish' calls' h => h.unique hdraws⟩, ?_, ?_⟩
  · rw [outline_eq_render, Drawing.text, Row.render, List.map_map]
    rfl
  · exact remarked_branches.cons fun path _ hmem => absurd hmem List.not_mem_nil

end ManifestModules.Graph
