import ManifestModules.FileSystem

/-! # Trees of files

An unchanging file system: files and directories below a working directory. A
path is followed one name at a time, and every name but the last must lead to a
directory. Nothing but directories is known outside of the tree.
-/

namespace ManifestModules

inductive Stored where
  | directory
  | file (bytes : ByteArray)

structure FileTree where
  /-- What is stored in the tree; the directories on the way to it need not be given. -/
  entries : List (List String × Stored)

namespace FileTree

/-- A place in the tree, given by the names that lead to it, or a directory outside. -/
inductive Place where
  | inside (names : List String)
  | outside
deriving DecidableEq, Repr

def ofPaths (files : List (String × Stored)) : FileTree where
  entries := files.map fun (path, stored) => ((Path.ofString path).normalize.steps, stored)

def stored? (tree : FileTree) (names : List String) : Option Stored :=
  if names.isEmpty then some .directory
  else
    match tree.entries.lookup names with
    | some stored => some stored
    | none =>
      if tree.entries.any fun (path, _) => names.isPrefixOf path then some .directory else none

def at? (tree : FileTree) : Place → Option Stored
  | .inside names => tree.stored? names
  | .outside => some .directory

def child : Place → String → Place
  | .inside names, name =>
    if name = "." || name = "" then .inside names
    else if name ≠ ".." then .inside (names ++ [name])
    else if names.isEmpty then .outside
    else .inside names.dropLast
  | .outside, _ => .outside

/-- Whether a name leads from outside to something known. -/
def isKnownOutside (name : String) : Bool := name = "" || name = "." || name = ".."

def step (tree : FileTree) (place : Place) (name : String) : Except FileFault Place :=
  match tree.at? place with
  | none => .error .missing
  | some (.file _) => .error .notDirectory
  | some .directory =>
    if name.utf8ByteSize > 255 then .error .nameTooLong
    else if place = .outside && !isKnownOutside name then .error .missing
    else if (tree.at? (child place name)).isNone then .error .missing
    else .ok (child place name)

def follow (tree : FileTree) (path : String) : Except FileFault Place :=
  if path.contains '\x00' then .error .zeroInPath
  else if path = "" then .error .missing
  else if path.utf8ByteSize ≥ 4096 then .error .nameTooLong
  else
    let start : Place := if path.toList.head? = some '/' then .outside else .inside []
    (Text.split '/' path).foldlM tree.step start

def read (tree : FileTree) (path : String) : Except FileFault String := do
  let place ← tree.follow path
  match tree.at? place with
  | none => .error .missing
  | some .directory => .error .isDirectory
  | some (.file bytes) =>
    match String.fromUTF8? bytes with
    | some text => .ok text
    | none => .error .notText

def present (tree : FileTree) (path : String) : Bool := (tree.follow path).isOk

def fileSystem {m : Type → Type} [Monad m] (tree : FileTree) : FileSystem m where
  read path := return tree.read path
  present path := return tree.present path

end FileTree

end ManifestModules
