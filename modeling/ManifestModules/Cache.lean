import ManifestModules.Decimal.Layout
import ManifestModules.Value.Basic

/-! # Document cache

The cache keeps the sections that were read from each path, and counts how often
they were found.
-/

namespace ManifestModules

structure Cache where
  documents : Table (List Entries)
  hits : Nat
  misses : Nat
deriving DecidableEq, Repr

namespace Cache

def empty : Cache := ⟨[], 0, 0⟩

/-- Looks a path up and counts the hit or miss. -/
def get (cache : Cache) (path : String) : Option (List Entries) × Cache :=
  match cache.documents.lookup path with
  | some sections => (some sections, { cache with hits := cache.hits + 1 })
  | none => (none, { cache with misses := cache.misses + 1 })

def insert (cache : Cache) (path : String) (sections : List Entries) : Cache :=
  { cache with documents := Table.put cache.documents path sections }

def size (cache : Cache) : Nat := cache.documents.length

/-- The share of hits in percent, a binary64 number. -/
def hitRate (cache : Cache) : Decimal.Binary64 :=
  let share := Decimal.Binary64.ofRatio false cache.hits (cache.hits + cache.misses)
  let (n, d) := share.toRatio
  Decimal.Binary64.ofRatio false (100 * n) d

def hitRateText (cache : Cache) : String :=
  let (n, d) := cache.hitRate.toRatio
  Decimal.oneDecimal n d

end Cache

end ManifestModules
