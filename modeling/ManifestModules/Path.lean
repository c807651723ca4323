import ManifestModules.Text.Split

/-! # Paths of modules

A path is read into its steps, without empty ones and without the step to the
same directory, and is written back from them. `normalize` also removes every
step to the parent directory that can be removed without looking at files, so
that equal spellings of one path become one string.
-/

namespace ManifestModules

structure Path where
  absolute : Bool
  steps : List String
deriving DecidableEq, Repr

namespace Path

def ofString (s : String) : Path where
  absolute := s.toList.head? = some '/'
  steps := (Text.split '/' s).filter fun step => step ≠ "" && step ≠ "."

def render (path : Path) : String :=
  if path.absolute then "/" ++ "/".intercalate path.steps
  else if path.steps.isEmpty then "."
  else "/".intercalate path.steps

/-- Takes one more step; the steps so far are given last one first. A step to the parent undoes
the step before it, leads nowhere from the root, and is kept at the beginning of a relative
path. -/
def take (absolute : Bool) (taken : List String) (step : String) : List String :=
  if step = ".." then
    match taken with
    | [] => if absolute then [] else [".."]
    | last :: before => if last = ".." then ".." :: taken else before
  else step :: taken

def normalize (path : Path) : Path :=
  { path with steps := (path.steps.foldl (take path.absolute) []).reverse }

/-- The directory of a path. A path without steps has none, and stands for the current
directory. -/
def directory (path : Path) : Path :=
  if path.steps.isEmpty then ⟨false, []⟩ else { path with steps := path.steps.dropLast }

def join (base path : Path) : Path :=
  if path.absolute then path else { base with steps := base.steps ++ path.steps }

end Path

def normalizePath (path : String) : String :=
  (Path.ofString path).normalize.render

/-- The canonical path of an import written in the module at `root`: relative to the directory of
that module unless it is absolute. -/
def resolveRelativePath (root path : String) : String :=
  ((Path.ofString root).directory.join (Path.ofString path)).normalize.render

end ManifestModules
