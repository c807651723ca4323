import ManifestModules.Module.Basic
import ManifestModules.Module.Source
import ManifestModules.Path

/-! # Loading modules

A module is loaded with everything it imports, directly or not. Only the first
section of an imported file counts. The chain of importers may neither come back
to a path nor grow beyond the depth limit, so loading ends whatever the source
answers.
-/

namespace ManifestModules.Module

variable {m : Type → Type} [Monad m] {τ : Type}

/-- A module with a remark on the file it was imported from. -/
abbrev Imported (τ : Type) := Module τ × Option String

def chainText (names : List String) : String :=
  " → ".intercalate names

/-- The part of the chain of importers that comes back to `path`. -/
def cycleTo? (chain : List String) (path : String) : Option String :=
  if path ∈ chain then some (chainText (chain.dropWhile (· ≠ path) ++ [path])) else none

/-- The remark on a file with sections that are not imported. -/
def extraSections? (path : String) (count : Nat) : Option String :=
  if count > 1 then
    some s!"{path} has {count} document sections; only the first is imported"
  else none

/-- Loads the targets of import declarations in order. The remarks on them are collected. -/
def loadImports (source : Source m) (path : String)
    (loadTarget : String → ExceptT Failure m (Imported τ)) :
    List ImportDeclaration → ExceptT Failure m (List (Import (Module τ)) × List String)
  | [] => return ([], [])
  | declaration :: rest => do
    let target ← source.resolvePath path declaration.path
    let (module, remark) ← loadTarget target
    let (imports, remarks) ← loadImports source path loadTarget rest
    return (⟨declaration.name, target, declaration.params, .unevaluated, module⟩ :: imports,
      remark.toList ++ remarks)

/-- Loads a section of the file at `path`. Its shape is checked before any import is loaded. -/
def loadSection (source : Source m) (path : String)
    (loadTarget : String → ExceptT Failure m (Imported τ)) (entries : Entries) :
    ExceptT Failure m (Module τ) := do
  let found ← (Section.ofEntries path entries : Except _ _)
  let (imports, diagnostics) ← loadImports source path loadTarget found.imports
  return ⟨path, imports, found.params, false, ⟨found.resource, none⟩, diagnostics⟩

/-- Loads the target of an import. `chain` holds the importers, outermost first, and `room` tells
how many more may be added before the depth limit is exceeded. -/
def loadTarget (source : Source m) (limit : Nat) :
    (room : Nat) → (chain : List String) → String → ExceptT Failure m (Imported τ)
  | room, chain, path =>
    match cycleTo? chain path, room with
    | some cycle, _ => throw (.cyclicImport cycle)
    | none, 0 => throw (.importDepthExceeded path limit)
    | none, room + 1 => do
      match ← source.readSections path with
      | [] => throw (.emptyDocument path)
      | first :: rest =>
        let module ←
          loadSection source path (loadTarget source limit room (chain ++ [path])) first
        return (module, extraSections? path (rest.length + 1))

def load (source : Source m) (limit : Nat) (path : String) :
    ExceptT Failure m (List (Module τ)) := do
  let path := normalizePath path
  match ← source.readSections path with
  | [] => throw (.emptyDocument path)
  | sections => sections.mapM (loadSection source path (loadTarget source limit limit [path]))

def loadImport (source : Source m) (limit : Nat) (path : String) :
    ExceptT Failure m (Module τ) := do
  let (module, remark) ← loadTarget source limit (limit + 1) [] (normalizePath path)
  return { module with diagnostics := module.diagnostics ++ remark.toList }

end ManifestModules.Module
