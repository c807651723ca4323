import ManifestModules.FileSystem
import ManifestModules.Toml

/-! # Configuration

The settings of a run with their defaults, and the settings file that changes
them. The file is given explicitly, else by the environment, else it is the one
in the home directory, which need not exist. A key that is not a setting makes a
file malformed.
-/

namespace ManifestModules

inductive OutputFormat where
  | yaml
  | json
deriving DecidableEq, Repr

namespace OutputFormat

def name : OutputFormat → String
  | .yaml => "yaml"
  | .json => "json"

def ofName? (name : String) : Option OutputFormat :=
  if name = "yaml" then some .yaml else if name = "json" then some .json else none

end OutputFormat

structure Configuration where
  /-- Whether sections that have been read are kept. -/
  cacheDocuments : Bool := true
  /-- How many imports may follow one another. -/
  maxImportDepth : Nat := 64
  output : OutputFormat := .yaml
deriving DecidableEq, Repr

namespace Configuration

/-- A key with all its parts and what it is set to. The header of a table sets nothing. -/
structure Assignment where
  line : Nat
  path : List String
  setting : Option Toml.Setting
deriving Repr

def assignments : (table : List String) → List Toml.Numbered → List Assignment
  | _, [] => []
  | table, ⟨_, .blank⟩ :: rest => assignments table rest
  | _, ⟨line, .header path⟩ :: rest => ⟨line, path, none⟩ :: assignments path rest
  | table, ⟨line, .entry path setting⟩ :: rest =>
    ⟨line, table ++ path, some setting⟩ :: assignments table rest

/-- A setting is made by the assignments to its key; none of them leave the default. -/
structure Reader (α : Type) where
  key : String
  read : List Assignment → Option (Option α)

def readCacheDocuments : Reader Bool where
  key := "cache_documents"
  read
    | [] => some none
    | [⟨_, [_], some (.boolean b)⟩] => some (some b)
    | _ => none

def readMaxImportDepth : Reader Nat where
  key := "max_import_depth"
  read
    | [] => some none
    | [⟨_, [_], some (.integer n)⟩] =>
      if 0 ≤ n ∧ n < twoPow 64 then some (some n.toNat) else none
    | _ => none

/-- A format that is a key is set to nothing but an empty collection. -/
def formatKey? (name : String) (below : Toml.Setting) : Option (Option OutputFormat) :=
  if below.isEmpty then (OutputFormat.ofName? name).map some else none

/-- A format is the text of a string or the only key of a table. -/
def readOutput : Reader OutputFormat where
  key := "output"
  read
    | [] => some none
    | [⟨_, [_], some (.string name)⟩] => (OutputFormat.ofName? name).map some
    | [⟨_, [_], some (.table (some ([name], below)))⟩]
    | [⟨_, [_, name], some below⟩]
    | [⟨_, [_], none⟩, ⟨_, [_, name], some below⟩] => formatKey? name below
    | [⟨_, [_, name], none⟩]
    | [⟨_, [_], none⟩, ⟨_, [_, name], none⟩]
    | [⟨_, [_, name], none⟩, ⟨_, [_], none⟩] => formatKey? name (.table none)
    | _ => none

/-- Reads one setting; if it is wrong, the line of its last assignment is reported. -/
def Reader.run {α : Type} (reader : Reader α) (all : List Assignment) : Except Nat (Option α) :=
  let own := all.filter (·.path.head? = some reader.key)
  match reader.read own with
  | some found => .ok found
  | none => .error ((own.getLast?.map (·.line)).getD 1)

def knownKeys : List String := [readCacheDocuments.key, readMaxImportDepth.key, readOutput.key]

def ofAssignments (all : List Assignment) : Except Nat Configuration := do
  if let some unknown := all.find? fun a => !a.path.head?.any (· ∈ knownKeys) then
    throw unknown.line
  let cacheDocuments ← readCacheDocuments.run all
  let maxImportDepth ← readMaxImportDepth.run all
  let output ← readOutput.run all
  let defaults : Configuration := {}
  return ⟨cacheDocuments.getD defaults.cacheDocuments,
    maxImportDepth.getD defaults.maxImportDepth, output.getD defaults.output⟩

/-- The settings in a text; if it is malformed, the number of a line. -/
def ofText (text : String) : Except Nat Configuration := do
  ofAssignments (assignments [] (← Toml.lines text))

end Configuration

structure Surroundings (m : Type → Type) where
  files : FileSystem m
  /-- The settings file that the environment names. -/
  settingsPath : Option String
  home : Option String

namespace Configuration

variable {m : Type → Type} [Monad m]

def readFile (files : FileSystem m) (path : String) : ExceptT Trouble m Configuration := do
  match ← files.read path with
  | .error fault => throw (fault.trouble.withContext s!"Failed to read config from {path}")
  | .ok text =>
    match ofText text with
    | .ok configuration => return configuration
    | .error line =>
      throw ((Trouble.plain s!"TOML parse error at line {line}").withContext
        s!"Failed to parse config from {path}")

def homePath (home : String) : String :=
  (if home.endsWith "/" then home else home ++ "/") ++ ".short/config.toml"

def load (surroundings : Surroundings m) (explicit : Option String) :
    ExceptT Trouble m Configuration := do
  match explicit, surroundings.settingsPath.filter (· ≠ ""), surroundings.home with
  | some path, _, _ | none, some path, _ => readFile surroundings.files path
  | none, none, none => return {}
  | none, none, some home =>
    if ← surroundings.files.present (homePath home) then
      readFile surroundings.files (homePath home)
    else return {}

def firstCache (configuration : Configuration) : Option Cache :=
  if configuration.cacheDocuments then some .empty else none

/-- Does work with a cache of its own. -/
def withCache {ε α : Type} (configuration : Configuration)
    (work : ExceptT ε (StateT (Option Cache) m) α) : ExceptT ε m α :=
  ExceptT.mk (work.run.run' configuration.firstCache)

end Configuration

end ManifestModules
