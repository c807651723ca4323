import ManifestModules.Module.Source
import ManifestModules.Proofs.Table
import Mathlib.Data.Finset.Card
import Mathlib.Data.Finset.Dedup

/-!
# What a cache holds and counts

Two readers of the same files make the same requests, one of them through a cache. At any time the
cache holds what the plain reader has read, and its counters tell how often it was asked in vain.
-/

namespace ManifestModules

def Readable (files : Source Id) (path : String) : Prop :=
  (files.read path).run.isOk = true

instance (files : Source Id) (path : String) : Decidable (Readable files path) :=
  inferInstanceAs (Decidable (_ = true))

/-- The reads that are left if a path is not read again once it could be read. -/
def firstReads (files : Source Id) (reads : List String) : List String :=
  reads.foldl (fun kept path => if path ∈ kept ∧ Readable files path then kept else kept ++ [path])
    []

def readPaths (files : Source Id) (reads : List String) : Finset String :=
  (reads.filter (Readable files ·)).toFinset

variable {files : Source Id} {path : String} {reads plain : List String} {cache : Cache}
  {sections : List Entries}

theorem readable_iff : Readable files path ↔ ∃ sections, (files.read path).run = .ok sections := by
  rw [Readable]
  cases (files.read path).run with
  | ok sections => exact ⟨fun _ => ⟨sections, rfl⟩, fun _ => rfl⟩
  | error trouble => exact ⟨fun h => (by cases h), fun ⟨_, h⟩ => (by cases h)⟩

theorem firstReads_append (files : Source Id) (reads : List String) (path : String) :
    firstReads files (reads ++ [path]) =
      if path ∈ firstReads files reads ∧ Readable files path then firstReads files reads
      else firstReads files reads ++ [path] := by
  rw [firstReads, List.foldl_append]
  rfl

theorem mem_firstReads : path ∈ firstReads files reads ↔ path ∈ reads := by
  induction reads using List.reverseRecOn with
  | nil => exact Iff.rfl
  | append_singleton reads last ih =>
    rw [firstReads_append]
    by_cases h : last ∈ firstReads files reads ∧ Readable files last
    · rw [if_pos h, ih, List.mem_append, List.mem_singleton]
      refine ⟨.inl, ?_⟩
      rintro (hmem | rfl)
      · exact hmem
      · exact ih.1 h.1
    · rw [if_neg h, List.mem_append, List.mem_append, ih]

/-- A path that was read before is left out. -/
theorem firstReads_again (h : path ∈ plain) (hreadable : Readable files path) :
    firstReads files (plain ++ [path]) = firstReads files plain := by
  rw [firstReads_append, if_pos ⟨mem_firstReads.2 h, hreadable⟩]

theorem firstReads_first (h : ¬ (path ∈ plain ∧ Readable files path)) :
    firstReads files (plain ++ [path]) = firstReads files plain ++ [path] := by
  rw [firstReads_append, if_neg]
  rwa [mem_firstReads]

theorem mem_readPaths : path ∈ readPaths files reads ↔ path ∈ reads ∧ Readable files path := by
  simp [readPaths]

theorem readPaths_append (files : Source Id) (reads : List String) (path : String) :
    readPaths files (reads ++ [path]) = if Readable files path then
      insert path (readPaths files reads) else readPaths files reads := by
  ext other
  by_cases h : Readable files path
  · rw [if_pos h, Finset.mem_insert, mem_readPaths, mem_readPaths, List.mem_append,
      List.mem_singleton, or_and_right, or_comm]
    exact or_congr_left (and_iff_left_of_imp fun heq => heq ▸ h)
  · rw [if_neg h, mem_readPaths, mem_readPaths, List.mem_append, List.mem_singleton, or_and_right]
    exact or_iff_left fun hother => h (hother.1 ▸ hother.2)

/-- A cache beside the reads that were made with it and those that were made without. -/
structure InStep (files : Source Id) (cache : Cache) (reads plain : List String) : Prop where
  reads_eq : reads = firstReads files plain
  misses : cache.misses = reads.length
  total : cache.hits + cache.misses = plain.length
  documents : ∀ path sections, cache.documents.lookup path = some sections ↔
    path ∈ plain ∧ (files.read path).run = .ok sections
  size : cache.size = (readPaths files plain).card

namespace InStep

theorem empty (files : Source Id) : InStep files .empty [] [] := by
  refine ⟨rfl, rfl, rfl, fun path sections => ?_, rfl⟩
  simp [Cache.empty]

theorem readable_of_lookup (h : InStep files cache reads plain)
    (hfound : cache.documents.lookup path = some sections) :
    path ∈ plain ∧ Readable files path := by
  obtain ⟨hmem, hread⟩ := (h.documents path sections).1 hfound
  exact ⟨hmem, readable_iff.2 ⟨sections, hread⟩⟩

theorem not_readable_of_lookup (h : InStep files cache reads plain)
    (hfound : cache.documents.lookup path = none) : ¬ (path ∈ plain ∧ Readable files path) := by
  rintro ⟨hmem, hreadable⟩
  obtain ⟨sections, hread⟩ := readable_iff.1 hreadable
  rw [(h.documents path sections).2 ⟨hmem, hread⟩] at hfound
  cases hfound

/-- The path is found in the cache, so that only the plain reader reads it. -/
theorem hit (h : InStep files cache reads plain)
    (hfound : cache.documents.lookup path = some sections) :
    InStep files { cache with hits := cache.hits + 1 } reads (plain ++ [path]) := by
  obtain ⟨hmem, hreadable⟩ := h.readable_of_lookup hfound
  refine ⟨?_, h.misses, ?_, fun other found => ?_, ?_⟩
  · rw [firstReads_again hmem hreadable, h.reads_eq]
  · have htotal := h.total
    simp only [List.length_append, List.length_singleton]
    omega
  · rw [h.documents other found, List.mem_append, List.mem_singleton]
    refine and_congr_left fun _ => ⟨.inl, ?_⟩
    rintro (hother | rfl)
    · exact hother
    · exact hmem
  · have hmem' := mem_readPaths.2 ⟨hmem, hreadable⟩
    rw [readPaths_append, if_pos hreadable, Finset.insert_eq_of_mem hmem']
    exact h.size

/-- A path that is not in the cache is read by both. -/
theorem reads_of_miss (h : InStep files cache reads plain)
    (hfound : cache.documents.lookup path = none) :
    reads ++ [path] = firstReads files (plain ++ [path]) ∧
      cache.misses + 1 = (reads ++ [path]).length ∧
      cache.hits + (cache.misses + 1) = (plain ++ [path]).length := by
  have hmisses := h.misses
  have htotal := h.total
  refine ⟨?_, ?_, ?_⟩
  · rw [firstReads_first (h.not_readable_of_lookup hfound), h.reads_eq]
  · rw [List.length_append, List.length_singleton, hmisses]
  · rw [List.length_append, List.length_singleton]
    omega

theorem miss_ok (h : InStep files cache reads plain)
    (hfound : cache.documents.lookup path = none) (hread : (files.read path).run = .ok sections) :
    InStep files (({ cache with misses := cache.misses + 1 } : Cache).insert path sections)
      (reads ++ [path]) (plain ++ [path]) := by
  obtain ⟨hreads, hmisses, htotal⟩ := h.reads_of_miss hfound
  have hreadable : Readable files path := readable_iff.2 ⟨sections, hread⟩
  have hnew : path ∉ readPaths files plain := by
    rw [mem_readPaths]
    exact h.not_readable_of_lookup hfound
  refine ⟨hreads, hmisses, htotal, fun other found => ?_, ?_⟩
  · change (Table.put cache.documents path sections).lookup other = some found ↔ _
    rw [Table.lookup_put, List.mem_append, List.mem_singleton]
    by_cases hother : other = path
    · subst hother
      rw [if_pos rfl, Option.some.injEq, hread, Except.ok.injEq]
      exact (and_iff_right (.inr rfl)).symm
    · rw [if_neg hother, h.documents other found, or_iff_left hother]
  · change (Table.put cache.documents path sections).length = _
    rw [Table.length_put sections hfound, readPaths_append, if_pos hreadable,
      Finset.card_insert_of_notMem hnew]
    exact congrArg (· + 1) h.size

/-- A failed read is not kept. -/
theorem miss_error {trouble : Trouble} (h : InStep files cache reads plain)
    (hfound : cache.documents.lookup path = none)
    (hread : (files.read path).run = .error trouble) :
    InStep files { cache with misses := cache.misses + 1 } (reads ++ [path]) (plain ++ [path]) := by
  obtain ⟨hreads, hmisses, htotal⟩ := h.reads_of_miss hfound
  have hreadable : ¬ Readable files path := by
    rw [readable_iff]
    rintro ⟨sections, hok⟩
    rw [hread] at hok
    cases hok
  refine ⟨hreads, hmisses, htotal, fun other found => ?_, ?_⟩
  · rw [h.documents other found, List.mem_append, List.mem_singleton]
    refine and_congr_left fun hok => ⟨.inl, ?_⟩
    rintro (hmem | rfl)
    · exact hmem
    · rw [hread] at hok
      cases hok
  · rw [readPaths_append, if_neg hreadable]
    exact h.size

end InStep

end ManifestModules
