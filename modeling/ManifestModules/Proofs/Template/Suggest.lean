import ManifestModules.Proofs.Text.EditDistance
import ManifestModules.Template.Suggest
import Mathlib.Data.List.Sort
import Mathlib.Data.Prod.Lex
import Mathlib.Data.String.Basic

/-!
# Suggestions

Names are ranked in a strict order: by their distance from the wanted one, and alphabetically at one
distance. A ranking is in this order and contains every available name, so that it does not matter
in which order the names are given, or how often. The suggestions are the beginning of a ranking, as
far as it is near.
-/

namespace ManifestModules.Template

namespace RankedName

variable {a b c : RankedName} {ranked : List RankedName}

def key (a : RankedName) : Nat ×ₗ String :=
  toLex (a.distance, a.name)

theorem key_injective : Function.Injective key := by
  intro a b h
  cases a
  cases b
  simpa [key] using h

theorem before_iff : a.before b ↔ a.key < b.key := by
  simp [before, key, Prod.Lex.toLex_lt_toLex]

theorem mem_insert : b ∈ a.insert ranked ↔ b = a ∨ b ∈ ranked := by
  induction ranked with
  | nil => simp [insert]
  | cons first rest ih =>
    rw [insert]
    by_cases hbefore : a.before first
    · simp [hbefore]
    by_cases hsame : a = first
    · rw [if_neg hbefore, if_pos hsame, hsame]
      simp
    · simp [hbefore, hsame, ih, or_left_comm]

/-- To insert a name keeps a ranking in order. -/
theorem pairwise_insert (h : ranked.Pairwise fun b c => b.key < c.key) :
    (a.insert ranked).Pairwise fun b c => b.key < c.key := by
  induction ranked with
  | nil => simp [insert]
  | cons first rest ih =>
    obtain ⟨hfirst, hrest⟩ := List.pairwise_cons.1 h
    rw [insert]
    by_cases hbefore : a.before first
    · rw [if_pos hbefore, List.pairwise_cons]
      refine ⟨fun c hc => ?_, h⟩
      have hlt := before_iff.1 hbefore
      rcases List.mem_cons.1 hc with rfl | hc
      · exact hlt
      · exact hlt.trans (hfirst c hc)
    by_cases hsame : a = first
    · rw [if_neg hbefore, if_pos hsame]
      exact h
    · rw [if_neg hbefore, if_neg hsame, List.pairwise_cons]
      refine ⟨fun c hc => ?_, ih hrest⟩
      rcases mem_insert.1 hc with rfl | hc
      · rw [before_iff, not_lt] at hbefore
        exact lt_of_le_of_ne hbefore fun hkey => hsame (key_injective hkey).symm
      · exact hfirst c hc

end RankedName

variable {target : String} {available available' : List String}

theorem mem_ranking {a : RankedName} : a ∈ ranking target available ↔
    a.name ∈ available ∧ a.distance = Text.editDistance target a.name := by
  rcases a with ⟨distance, name⟩
  induction available with
  | nil => simp [ranking]
  | cons first rest ih =>
    change _ ∈ RankedName.insert _ (ranking target rest) ↔ _
    rw [RankedName.mem_insert, ih]
    by_cases hname : name = first
    · simp [hname]
    · simp [hname]

theorem ranking_sorted (target : String) (available : List String) :
    (ranking target available).Pairwise fun a b => a.key < b.key := by
  induction available with
  | nil => exact List.Pairwise.nil
  | cons name rest ih => exact RankedName.pairwise_insert ih

/-- A ranking depends only on which names are available. -/
theorem ranking_congr (h : ∀ name, name ∈ available ↔ name ∈ available') :
    ranking target available = ranking target available' := by
  have hirrefl : Std.Irrefl fun a b : RankedName => a.key < b.key := ⟨fun a => lt_irrefl a.key⟩
  have hantisymm : Std.Antisymm fun a b : RankedName => a.key < b.key :=
    ⟨fun a b hab hba => absurd hab (lt_asymm hba)⟩
  apply (ranking_sorted target available).eq_of_mem_iff (ranking_sorted target available')
  intro a
  rw [mem_ranking, mem_ranking, h]

theorem similarNames_congr (h : ∀ name, name ∈ available ↔ name ∈ available') :
    similarNames target available = similarNames target available' := by
  rw [similarNames, similarNames, ranking_congr h]

/-- The first name is nearer to the target, or as near and alphabetically the first. -/
def Nearer (target first second : String) : Prop :=
  toLex (Text.editDistance target first, first) < toLex (Text.editDistance target second, second)

def IsNear (target : String) (available : List String) (name : String) : Prop :=
  name ∈ available ∧ Text.editDistance target name ≤ target.utf8ByteSize / 2

/-- The names of a ranking up to the last one that is near. -/
def nearNames (target : String) (available : List String) : List String :=
  ((ranking target available).filter (·.distance ≤ nearness target)).map (·.name)

theorem similarNames_eq (target : String) (available : List String) :
    similarNames target available = (nearNames target available).take maxSuggestions :=
  List.map_take

theorem nearness_eq (target : String) : nearness target = target.utf8ByteSize / 2 := by
  rw [nearness]
  omega

theorem mem_nearNames {name : String} :
    name ∈ nearNames target available ↔ IsNear target available name := by
  simp only [nearNames, List.mem_map, List.mem_filter, mem_ranking, decide_eq_true_eq, nearness_eq,
    IsNear]
  constructor
  · rintro ⟨a, ⟨⟨hmem, hdistance⟩, hnear⟩, rfl⟩
    exact ⟨hmem, hdistance ▸ hnear⟩
  · rintro ⟨hmem, hnear⟩
    exact ⟨⟨_, name⟩, ⟨⟨hmem, rfl⟩, hnear⟩, rfl⟩

theorem pairwise_nearNames (target : String) (available : List String) :
    (nearNames target available).Pairwise (Nearer target) := by
  rw [nearNames, List.pairwise_map]
  refine ((ranking_sorted target available).filter _).imp_of_mem fun {a b} ha hb hkey => ?_
  have ha := (mem_ranking.1 (List.mem_of_mem_filter ha)).2
  have hb := (mem_ranking.1 (List.mem_of_mem_filter hb)).2
  rwa [RankedName.key, RankedName.key, ha, hb] at hkey

theorem ne_of_nearer {first second : String} (h : Nearer target first second) : first ≠ second := by
  rintro rfl
  exact lt_irrefl _ h

/-- The suggestions are the nearest names. At most three names are suggested, each once and nearest
first, and all of them are near enough. A name that is near enough is left out only if three nearer
ones are suggested. So it does not matter in which order the names are given, or how often. -/
theorem similarNames_nearest (target : String) (available : List String) :
    let shown := similarNames target available
    (∀ name, IsLeast {count | Text.Edits count target.toList name.toList}
      (Text.editDistance target name)) ∧
    (shown.Nodup ∧ shown.length ≤ 3 ∧ shown.Pairwise (Nearer target) ∧
      ∀ name ∈ shown, IsNear target available name) ∧
    (∀ name, IsNear target available name → name ∉ shown →
      shown.length = 3 ∧ ∀ other ∈ shown, Nearer target other name) ∧
    ∀ available', (∀ name, name ∈ available' ↔ name ∈ available) →
      similarNames target available' = shown := by
  intro shown
  have htake : shown = (nearNames target available).take 3 := similarNames_eq target available
  have hsplit : shown ++ (nearNames target available).drop 3 = nearNames target available := by
    rw [htake, List.take_append_drop]
  have hpairwise := pairwise_nearNames target available
  rw [← hsplit, List.pairwise_append] at hpairwise
  obtain ⟨hshown, -, hleft⟩ := hpairwise
  refine ⟨fun name => Text.editDistance_isLeast target name,
    ⟨hshown.imp ne_of_nearer, ?_, hshown, fun name hname => ?_⟩, fun name hnear hname => ?_,
    fun available' h => similarNames_congr h⟩
  · rw [htake]
    exact List.length_take_le 3 _
  · rw [← mem_nearNames, ← hsplit]
    exact List.mem_append_left _ hname
  · rw [← mem_nearNames, ← hsplit, List.mem_append, or_iff_right hname] at hnear
    refine ⟨?_, fun other hother => hleft other hother name hnear⟩
    -- something is left behind the first three
    have hlength := List.length_pos_of_mem hnear
    rw [List.length_drop] at hlength
    rw [htake, List.length_take]
    omega

example : similarNames "port" ["ports2", "port", "sport", "port", "part", "hose"] =
    ["port", "part", "sport"] := by decide +kernel

end ManifestModules.Template
