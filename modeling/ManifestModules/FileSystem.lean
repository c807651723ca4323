import ManifestModules.Failure
import ManifestModules.Module.Source
import ManifestModules.Path
import ManifestModules.Section.Text

/-! # File systems

All that is asked of a file system is the text of a file and whether there is
anything at a path. The files of a file system are a source of modules, where
the path of an import is relative to the importing file.
-/

namespace ManifestModules

structure FileFault where
  kind : IoKind
  text : String
deriving DecidableEq, Repr

namespace FileFault

def missing : FileFault := ⟨.notFound, "No such file or directory (os error 2)"⟩

def notDirectory : FileFault := ⟨.other, "Not a directory (os error 20)"⟩

def isDirectory : FileFault := ⟨.other, "Is a directory (os error 21)"⟩

def nameTooLong : FileFault := ⟨.other, "File name too long (os error 36)"⟩

def notText : FileFault := ⟨.other, "stream did not contain valid UTF-8"⟩

def zeroInPath : FileFault := ⟨.other, "file name contained an unexpected NUL byte"⟩

def trouble (fault : FileFault) : Trouble := ⟨.io fault.kind fault.text, []⟩

end FileFault

structure FileSystem (m : Type → Type) where
  /-- The text of the file at a path. -/
  read : String → m (Except FileFault String)
  /-- Whether there is a file or directory at a path. -/
  present : String → m Bool

namespace FileSystem

variable {m : Type → Type} [Monad m]

def readSections (files : FileSystem m) (path : String) : m (Except Failure (List Entries)) := do
  match ← files.read path with
  | .ok text => return parseSections path text
  | .error fault => return .error (.readFailed path fault.text)

def source (files : FileSystem m) : Source m where
  read path := do return (← files.readSections path).mapError .ofFailure
  resolve importer written := return .ok (resolveRelativePath importer written)

end FileSystem

end ManifestModules
