import ManifestModules.Proofs.Effect
import ManifestModules.Section.Text
import Mathlib.Data.List.Forall2
import Mathlib.Data.List.ReduceOption

/-!
# Reading a stream of sections

Every section of a stream is read, or none: a section is either acceptable, and then it is empty or
gives its map, or there is a failure that names it by its place among all sections, the empty ones
included. The first section that is not acceptable decides about the failure.
-/

namespace ManifestModules.Section

open Value (ofData)
open Yaml (Data Problem)

/-- A section that is empty or a map, with the map. -/
inductive Reads : Except Problem Data → Option Entries → Prop
  | empty {data : Data} (null : ofData data = .ok .null) : Reads (.ok data) none
  | map {data : Data} {entries : Entries} (map : ofData data = .ok (.map entries)) :
    Reads (.ok data) (some entries)

/-- What is reported of a section at a place: that it cannot be decoded, that a key in it has no
text, or that it is of another type. -/
inductive Rejected (path : String) (index : Nat) : Except Problem Data → Failure → Prop
  | undecoded (problem : Problem) : Rejected path index (.error problem)
    (.readFailed path s!"invalid YAML in document {index}: {problem.message}")
  | key {data : Data} {fault : NonScalarKey} (unfit : ofData data = .error fault) :
    Rejected path index (.ok data) (.invalidMapKey path index fault.found)
  | type {data : Data} {value : Value} (converted : ofData data = .ok value)
    (full : value ≠ .null) (other : ∀ entries, value ≠ .map entries) :
    Rejected path index (.ok data) (.invalidDocument path index value.typeName)

variable {path : String} {index : Nat} {data : Except Problem Data}
  {sections : List (Except Problem Data)}

theorem readSection_eq_ok {read : Option Entries} :
    readSection path index data = .ok read ↔ Reads data read := by
  constructor
  · intro h
    simp only [readSection] at h
    split at h
    · cases h
    · split at h
      · cases h
      · cases h
        exact .empty ‹_›
      · cases h
        exact .map ‹_›
      · cases h
  · intro h
    cases h with
    | empty null => simp only [readSection, null]
    | map map => simp only [readSection, map]

theorem readSection_eq_error {failure : Failure} :
    readSection path index data = .error failure ↔ Rejected path index data failure := by
  constructor
  · intro h
    simp only [readSection] at h
    split at h
    · cases h
      exact .undecoded _
    · split at h
      · cases h
        exact .key ‹_›
      · cases h
      · cases h
      · next value hnull hmap hconverted =>
        cases h
        exact .type hconverted hnull hmap
  · intro h
    cases h with
    | undecoded problem => rfl
    | key unfit => simp only [readSection, unfit]
    | type converted full other => simp only [readSection, converted]

theorem readSectionsFrom_eq_ok {maps : List Entries} :
    readSectionsFrom path index sections = .ok maps ↔
      ∃ read, List.Forall₂ Reads sections read ∧ maps = read.reduceOption := by
  induction sections generalizing index maps with
  | nil => simp [readSectionsFrom, eq_comm]
  | cons data rest ih =>
    simp only [readSectionsFrom, bind_eq_ok, readSection_eq_ok, ih, List.forall₂_cons_left_iff]
    constructor
    · rintro ⟨first, hfirst, _, ⟨read, hread, rfl⟩, h⟩
      cases h
      refine ⟨first :: read, ⟨first, read, hfirst, hread, rfl⟩, ?_⟩
      cases first <;> rfl
    · rintro ⟨_, ⟨first, read, hfirst, hread, rfl⟩, rfl⟩
      refine ⟨first, hfirst, _, ⟨read, hread, rfl⟩, ?_⟩
      cases first <;> rfl

theorem readSectionsFrom_eq_error {failure : Failure} :
    readSectionsFrom path index sections = .error failure ↔
      ∃ before data after, sections = before ++ data :: after ∧
        (∀ data ∈ before, ∃ read, Reads data read) ∧
        Rejected path (index + before.length) data failure := by
  induction sections generalizing index with
  | nil => simp [readSectionsFrom]
  | cons first rest ih =>
    have hpure (maps : List Entries) : (pure maps : Except Failure _) ≠ .error failure := nofun
    rw [readSectionsFrom, bind_eq_error, readSection_eq_error, exists_first_cons]
    simp only [bind_eq_error, readSection_eq_ok, ih, hpure, and_false, exists_false, or_false,
      exists_and_right, List.length_nil, Nat.add_zero, List.length_cons, ← Nat.add_assoc,
      Nat.add_right_comm index 1]

theorem exists_forall₂_iff :
    (∃ read, List.Forall₂ Reads sections read) ↔ ∀ data ∈ sections, ∃ read, Reads data read := by
  constructor
  · rintro ⟨read, hread⟩ data hdata
    induction hread with
    | nil => cases hdata
    | cons hfirst _ ih =>
      rcases List.mem_cons.1 hdata with rfl | hdata
      · exact ⟨_, hfirst⟩
      · exact ih hdata
  · intro h
    choose! read hread using h
    exact ⟨sections.map read, List.forall₂_map_right_iff.2 (List.forall₂_same.2 hread)⟩

/-- Streams are read completely. If all sections are acceptable, the maps are those of the sections
that are not empty, in order; otherwise the first section that is not acceptable is reported, with
its place among all sections. -/
theorem readSections_complete (path : String) (sections : List (Except Problem Data)) :
    ((∃ maps, readSections path sections = .ok maps) ↔
      ∀ data ∈ sections, ∃ read, Reads data read) ∧
    (∀ maps, readSections path sections = .ok maps ↔
      ∃ read, List.Forall₂ Reads sections read ∧ maps = read.reduceOption) ∧
    (∀ failure, readSections path sections = .error failure ↔
      ∃ before data after, sections = before ++ data :: after ∧
        (∀ data ∈ before, ∃ read, Reads data read) ∧ Rejected path before.length data failure) ∧
    ∀ text, parseSections path text = readSections path (Yaml.sections text) := by
  refine ⟨?_, fun maps => readSectionsFrom_eq_ok, fun failure => ?_, fun text => rfl⟩
  · rw [← exists_forall₂_iff]
    constructor
    · rintro ⟨maps, hmaps⟩
      obtain ⟨read, hread, -⟩ := readSectionsFrom_eq_ok.1 hmaps
      exact ⟨read, hread⟩
    · rintro ⟨read, hread⟩
      exact ⟨_, readSectionsFrom_eq_ok.2 ⟨read, hread, rfl⟩⟩
  · refine readSectionsFrom_eq_error.trans ?_
    simp only [Nat.zero_add]

def podSections : List (Except Problem Data) :=
  [.ok .null, .ok (.mapping [(.string "pod", .null)]), .ok .null]

theorem readSections_complete_pod :
    readSections "pod.yaml" podSections = .ok [[("pod", .null)]] ∧
    readSections "pod.yaml" (podSections ++ [.ok (.sequence []), .error .duplicateKey]) =
      .error (.invalidDocument "pod.yaml" 3 "list") := by
  have hnull : Reads (.ok .null) none := .empty rfl
  have hpod : Reads (.ok (.mapping [(.string "pod", .null)])) (some [("pod", .null)]) := .map rfl
  have hlist : ofData (.sequence []) = .ok (.list []) := rfl
  have hread : List.Forall₂ Reads podSections [none, some [("pod", .null)], none] :=
    .cons hnull (.cons hpod (.cons hnull .nil))
  obtain ⟨-, hok, -, -⟩ := readSections_complete "pod.yaml" podSections
  obtain ⟨-, -, herror, -⟩ :=
    readSections_complete "pod.yaml" (podSections ++ [.ok (.sequence []), .error .duplicateKey])
  refine ⟨(hok _).2 ⟨_, hread, rfl⟩, (herror _).2 ?_⟩
  refine ⟨podSections, .ok (.sequence []), [.error .duplicateKey], rfl,
    exists_forall₂_iff.1 ⟨_, hread⟩, ?_⟩
  exact .type hlist (by simp) (by simp)

end ManifestModules.Section
