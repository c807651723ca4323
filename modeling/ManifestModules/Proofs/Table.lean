import ManifestModules.Table
import Mathlib.Data.List.Sort
import Mathlib.Logic.Basic

/-! # Lookup in tables -/

namespace ManifestModules.Table

variable {α : Type}

theorem lookup_cons (key other : String) (value : α) (rest : Table α) :
    List.lookup other ((key, value) :: rest) =
      if other = key then some value else rest.lookup other := by
  by_cases h : other = key
  · rw [if_pos h, List.lookup_cons, beq_iff_eq.2 h]
  · rw [if_neg h, List.lookup_cons, beq_eq_false_iff_ne.2 h]

theorem lookup_put (table : Table α) (key other : String) (value : α) :
    (put table key value).lookup other =
      if other = key then some value else table.lookup other := by
  induction table with
  | nil => rw [put, lookup_cons]
  | cons entry rest ih =>
    obtain ⟨k, v⟩ := entry
    rw [put]
    by_cases hlt : key < k
    · rw [if_pos hlt, lookup_cons]
    rw [if_neg hlt]
    by_cases heq : key = k
    · subst k
      rw [if_pos rfl, lookup_cons, lookup_cons]
      by_cases h : other = key
      · rw [if_pos h, if_pos h]
      · rw [if_neg h, if_neg h, if_neg h]
    · rw [if_neg heq, lookup_cons, ih, lookup_cons]
      by_cases hk : other = k
      · rw [if_pos hk, if_neg (by rw [hk]; exact Ne.symm heq)]
        exact (if_pos hk).symm
      · rw [if_neg hk, if_neg hk]

theorem lookup_put_eq_none {table : Table α} {key other : String} {value : α} :
    (put table key value).lookup other = none ↔ other ≠ key ∧ table.lookup other = none := by
  rw [lookup_put]
  by_cases h : other = key <;> simp [h]

theorem lookup_eq_none_iff {table : Table α} {key : String} :
    table.lookup key = none ↔ key ∉ keys table := by
  induction table with
  | nil => simp [keys]
  | cons entry rest ih =>
    obtain ⟨k, v⟩ := entry
    rw [lookup_cons, keys, List.map_cons, List.mem_cons, not_or]
    by_cases h : key = k
    · simp [h]
    · rw [if_neg h, ih]
      simp [h, keys]

theorem perm_put {table : Table α} {key : String} (value : α) (h : table.lookup key = none) :
    (put table key value).Perm ((key, value) :: table) := by
  induction table with
  | nil => exact .refl _
  | cons entry rest ih =>
    obtain ⟨k, v⟩ := entry
    rw [lookup_cons] at h
    rw [put]
    by_cases hlt : key < k
    · rw [if_pos hlt]
    · rw [if_neg hlt]
      by_cases heq : key = k
      · rw [if_pos heq] at h
        cases h
      · rw [if_neg heq] at h ⊢
        exact ((ih h).cons (k, v)).trans (.swap (key, value) (k, v) rest)

/-- A new key is one more entry. -/
theorem length_put {table : Table α} {key : String} (value : α) (h : table.lookup key = none) :
    (put table key value).length = table.length + 1 :=
  (perm_put value h).length_eq

theorem mem_put {table : Table α} {key : String} {value : α} {entry : String × α}
    (h : entry ∈ put table key value) : entry = (key, value) ∨ entry ∈ table := by
  induction table with
  | nil => simpa [put] using h
  | cons first rest ih =>
    obtain ⟨k, v⟩ := first
    rw [put] at h
    by_cases hlt : key < k
    · simpa [hlt] using h
    by_cases heq : key = k
    · simp only [heq, Std.lt_irrefl, if_true, if_false, List.mem_cons] at h ⊢
      exact h.imp id .inr
    · simp only [hlt, heq, if_false, List.mem_cons] at h ⊢
      rcases h with h | h
      · exact .inr (.inl h)
      · exact (ih h).imp id .inr

theorem Sorted.put {table : Table α} (h : table.Sorted) (key : String) (value : α) :
    (put table key value).Sorted := by
  induction table with
  | nil => simp [Table.put, Sorted]
  | cons first rest ih =>
    obtain ⟨k, v⟩ := first
    obtain ⟨hfirst, hrest⟩ := List.pairwise_cons.1 h
    rw [Table.put]
    by_cases hlt : key < k
    · rw [if_pos hlt]
      apply List.pairwise_cons.2 ⟨_, h⟩
      intro entry hentry
      rcases List.mem_cons.1 hentry with rfl | hentry
      · exact hlt
      · exact Std.lt_trans hlt (hfirst entry hentry)
    rw [if_neg hlt]
    by_cases heq : key = k
    · rw [if_pos heq, heq]
      exact List.pairwise_cons.2 ⟨hfirst, hrest⟩
    · rw [if_neg heq]
      apply List.pairwise_cons.2 ⟨_, ih hrest⟩
      intro entry hentry
      rcases mem_put hentry with rfl | hentry
      · exact Std.lt_of_le_of_ne (Std.not_lt.1 hlt) (Ne.symm heq)
      · exact hfirst entry hentry

/-- A key is missing exactly if neither table has it. -/
theorem lookup_override_eq_none {base newer : Table α} {key : String} :
    (override base newer).lookup key = none ↔ base.lookup key = none ∧ newer.lookup key = none := by
  induction newer generalizing base with
  | nil => simp [override]
  | cons entry rest ih =>
    obtain ⟨k, v⟩ := entry
    rw [override, List.foldl_cons]
    refine ih.trans ?_
    rw [lookup_put, lookup_cons]
    by_cases h : key = k
    · simp [h]
    · rw [if_neg h, if_neg h]

/-- Entries with new and distinct keys are all added. -/
theorem perm_override {base newer : Table α} (hnew : ∀ entry ∈ newer, base.lookup entry.1 = none)
    (hdistinct : (keys newer).Nodup) : (override base newer).Perm (newer ++ base) := by
  induction newer generalizing base with
  | nil => exact .refl _
  | cons entry rest ih =>
    obtain ⟨k, v⟩ := entry
    obtain ⟨hentry, hrest⟩ := List.forall_mem_cons.1 hnew
    obtain ⟨hk, hdistinct⟩ := List.nodup_cons.1 hdistinct
    have hput : ∀ other ∈ rest, (put base k v).lookup other.1 = none := by
      intro other hother
      have hne : other.1 ≠ k := fun h => hk (h ▸ List.mem_map.2 ⟨other, hother, rfl⟩)
      exact lookup_put_eq_none.2 ⟨hne, hrest other hother⟩
    have hadded : (override (put base k v) rest).Perm (rest ++ (k, v) :: base) :=
      (ih hput hdistinct).trans ((perm_put v hentry).append_left rest)
    exact hadded.trans List.perm_middle

theorem Sorted.override {base : Table α} (h : base.Sorted) (newer : Table α) :
    (override base newer).Sorted := by
  induction newer generalizing base with
  | nil => exact h
  | cons entry rest ih => exact ih (h.put entry.1 entry.2)

/-- The last of the pairs with this key. -/
def Last (pairs : List (String × α)) (key : String) (value : α) : Prop :=
  ∃ before after, pairs = before ++ (key, value) :: after ∧ key ∉ keys after

theorem last_cons {key k : String} {value v : α} {rest : List (String × α)} :
    Last ((k, v) :: rest) key value ↔
      Last rest key value ∨ key ∉ keys rest ∧ key = k ∧ value = v := by
  constructor
  · rintro ⟨before, after, h, hafter⟩
    cases before with
    | nil =>
      cases h
      exact .inr ⟨hafter, rfl, rfl⟩
    | cons first before =>
      cases h
      exact .inl ⟨before, after, rfl, hafter⟩
  · rintro (⟨before, after, rfl, hafter⟩ | ⟨hrest, rfl, rfl⟩)
    · exact ⟨(k, v) :: before, after, rfl, hafter⟩
    · exact ⟨[], rest, rfl, hrest⟩

theorem lookup_override_eq_some {base newer : Table α} {key : String} {value : α} :
    (override base newer).lookup key = some value ↔
      Last newer key value ∨ key ∉ keys newer ∧ base.lookup key = some value := by
  induction newer generalizing base with
  | nil => simp [override, Last, keys]
  | cons entry rest ih =>
    obtain ⟨k, v⟩ := entry
    rw [override, List.foldl_cons]
    refine ih.trans ?_
    rw [lookup_put, last_cons, keys, keys, List.map_cons, List.mem_cons]
    by_cases h : key = k
    · simp [h, eq_comm]
    · simp [h]

/-- Of the pairs with one key the last one is kept. -/
theorem lookup_ofPairs {pairs : List (String × α)} {key : String} {value : α} :
    (ofPairs pairs).lookup key = some value ↔ Last pairs key value := by
  change (override [] pairs).lookup key = some value ↔ _
  simp [lookup_override_eq_some]

theorem sorted_ofPairs (pairs : List (String × α)) : (ofPairs pairs).Sorted :=
  Sorted.override List.Pairwise.nil pairs

namespace Sorted

variable {table : Table α}

theorem not_mem_keys {key : String} {value : α} (h : Sorted ((key, value) :: table)) :
    key ∉ keys table := by
  intro hmem
  obtain ⟨entry, hentry, rfl⟩ := List.mem_map.1 hmem
  exact Std.lt_irrefl ((List.pairwise_cons.1 h).1 entry hentry)

theorem lookup_eq_some (h : table.Sorted) {key : String} {value : α} :
    table.lookup key = some value ↔ (key, value) ∈ table := by
  induction table with
  | nil => simp
  | cons entry rest ih =>
    obtain ⟨k, v⟩ := entry
    rw [lookup_cons, List.mem_cons]
    by_cases hk : key = k
    · subst hk
      have hnew : (key, value) ∉ rest := fun hmem => h.not_mem_keys (List.mem_map_of_mem hmem)
      simp [hnew, eq_comm]
    · simp [hk, ih (List.pairwise_cons.1 h).2]

theorem ext (h : table.Sorted) {other : Table α} (h' : other.Sorted)
    (hlookup : ∀ key value, table.lookup key = some value ↔ other.lookup key = some value) :
    table = other := by
  have hirrefl : Std.Irrefl fun a b : String × α => a.1 < b.1 := ⟨fun a => Std.lt_irrefl⟩
  have hantisymm : Std.Antisymm fun a b : String × α => a.1 < b.1 :=
    ⟨fun a b hab hba => absurd (Std.lt_trans hab hba) Std.lt_irrefl⟩
  apply List.Pairwise.eq_of_mem_iff h h'
  rintro ⟨key, value⟩
  rw [← h.lookup_eq_some, ← h'.lookup_eq_some, hlookup]

theorem last_iff_mem (h : table.Sorted) {key : String} {value : α} :
    Last table key value ↔ (key, value) ∈ table := by
  induction table with
  | nil => simp [Last]
  | cons entry rest ih =>
    obtain ⟨k, v⟩ := entry
    rw [last_cons, ih (List.pairwise_cons.1 h).2, List.mem_cons, or_comm, Prod.mk.injEq]
    apply or_congr_left
    refine ⟨And.right, fun hentry => ⟨?_, hentry⟩⟩
    rw [hentry.1]
    exact h.not_mem_keys

end Sorted

theorem eq_ofPairs_iff {table : Table α} {pairs : List (String × α)} :
    table = ofPairs pairs ↔
      table.Sorted ∧ ∀ key value, table.lookup key = some value ↔ Last pairs key value := by
  constructor
  · rintro rfl
    exact ⟨sorted_ofPairs pairs, fun _ _ => lookup_ofPairs⟩
  · rintro ⟨hsorted, hlast⟩
    exact hsorted.ext (sorted_ofPairs pairs) fun key value =>
      (hlast key value).trans lookup_ofPairs.symm

theorem Sorted.ofPairs_eq {table : Table α} (h : table.Sorted) : ofPairs table = table :=
  (eq_ofPairs_iff.2 ⟨h, fun _ _ => h.lookup_eq_some.trans h.last_iff_mem.symm⟩).symm

end ManifestModules.Table
