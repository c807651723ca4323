import ManifestModules.Cache
import ManifestModules.Trouble

/-! # Sources of modules

A source reads the sections stored at a path and says which path an import
means. It may fail and have effects of its own. A cached source asks for no path
again once it has been read.
-/

namespace ManifestModules

structure Source (m : Type → Type) where
  /-- The sections at a path. -/
  read : String → m (Except Trouble (List Entries))
  /-- The path that the module at `importer` means by an import path. -/
  resolve : (importer written : String) → m (Except Trouble String)

namespace Source

variable {m : Type → Type} [Monad m]

def readSections (source : Source m) (path : String) : ExceptT Failure m (List Entries) := do
  match ← source.read path with
  | .ok sections => return sections
  | .error trouble => throw (trouble.toFailure (.readFailed path))

def resolvePath (source : Source m) (importer written : String) : ExceptT Failure m String := do
  match ← source.resolve importer written with
  | .ok path => return path
  | .error trouble => throw (trouble.toFailure (.importPathFailed importer written))

/-- The source behind a cache, if there is one. A failed read is not kept. -/
def cached (source : Source m) : Source (StateT (Option Cache) m) where
  read path := do
    match ← get with
    | none => source.read path
    | some cache =>
      let (found, counted) := cache.get path
      set (some counted)
      match found with
      | some sections => return .ok sections
      | none =>
        let result ← source.read path
        if let .ok sections := result then
          set (some (counted.insert path sections))
        return result
  resolve importer written := source.resolve importer written

end Source

end ManifestModules
