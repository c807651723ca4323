import ManifestModules.Failure

/-! # Troubles

A trouble is a root cause with the contexts that were put around it on its way
out. A collaborator reports one when it fails; the command line turns the one
that reaches it into a report.
-/

namespace ManifestModules

inductive RootCause where
  | failure (failure : Failure)
  | io (kind : IoKind) (text : String)
  | plain (text : String)
deriving DecidableEq, Repr

structure Trouble where
  root : RootCause
  /-- The contexts around the root, outermost first. -/
  contexts : List String
deriving DecidableEq, Repr

namespace RootCause

def message : RootCause → String
  | .failure cause => cause.message
  | .io _ text => text
  | .plain text => text

/-- The error below the message, if it only passes that one on. -/
def cause? : RootCause → Option String
  | .failure cause => cause.cause?
  | .io .. | .plain _ => none

end RootCause

namespace Trouble

def ofFailure (failure : Failure) : Trouble := ⟨.failure failure, []⟩

def plain (text : String) : Trouble := ⟨.plain text, []⟩

def withContext (trouble : Trouble) (context : String) : Trouble :=
  { trouble with contexts := context :: trouble.contexts }

/-- The messages from the outermost context to the root and what is below it. -/
def messages (trouble : Trouble) : List String :=
  trouble.contexts ++ trouble.root.message :: trouble.root.cause?.toList

def outermost (trouble : Trouble) : String :=
  trouble.messages.headD ""

def summary (trouble : Trouble) : String :=
  ": ".intercalate trouble.messages

def failure? (trouble : Trouble) : Option Failure :=
  match trouble.root with
  | .failure cause => some cause
  | _ => none

/-- The failure that a collaborator's trouble becomes: its own, or else its summary put into
words by `wrap`. -/
def toFailure (trouble : Trouble) (wrap : String → Failure) : Failure :=
  match trouble.failure? with
  | some cause => cause
  | none => wrap trouble.summary

variable {m : Type → Type} [Monad m] {α : Type}

/-- Puts a context around the trouble of a part of the work. -/
def around (context : String) (work : ExceptT Trouble m α) : ExceptT Trouble m α :=
  ExceptT.adapt (·.withContext context) work

def aroundFailure (context : String) (work : ExceptT Failure m α) : ExceptT Trouble m α :=
  around context (ExceptT.adapt ofFailure work)

end Trouble

structure Report where
  failure : Failure
  suggestion : Option String
  details : Option String
deriving DecidableEq, Repr

namespace Report

private def quotedNames (names : List String) : String :=
  ", ".intercalate (names.map fun name => s!"'{name}'")

def ofFailure (failure : Failure) : Report :=
  let report (suggestion details : Option String) : Report := ⟨failure, suggestion, details⟩
  match failure with
  | .invalidImports .. =>
    report
      (some ("Write each import as '- <name>: <path>' with an optional 'params:' map " ++
        "on the same entry"))
      (some ("'imports' must be a list; every entry has exactly one name/path pair " ++
        "and at most one 'params' map"))
  | .invalidParams .. =>
    report
      (some ("Write each parameter as '- <name>' or '- <name>: <description>' " ++
        "with an optional 'default:' on the same entry"))
      (some "'params' must be a list of parameter declarations")
  | .invalidExport path _ =>
    report
      (some "Split additional resources into separate documents or modules")
      (some (s!"Apart from 'imports' and 'params', {path} must have a single top-level key " ++
        "naming the resource (e.g. 'deployment')"))
  | .invalidMapKey .. => report (some "Use a string, number or bool as the map key") none
  | .unknownIdentifier _ _ suggestions =>
    report
      (some (match suggestions with
        | [] => "Declare the name under 'params' or 'imports' of the module"
        | names => s!"Did you mean {quotedNames names}?"))
      (some ("Template holes resolve against the module's own parameters first, " ++
        "then its imports"))
  | .invalidPathIndex .. =>
    report
      (some "Check the dotted path: use keys for maps and zero-based integers for lists")
      (some "Paths like $\x7bname.containers.0.image\x7d index into the value of 'name'")
  | .fillTypeMismatch .. =>
    report
      (some ("Use the hole as the whole value (e.g. 'key: $\x7bname\x7d') " ++
        "to insert lists or maps"))
      (some ("Holes embedded in a larger string are converted to text, " ++
        "which only works for strings and numbers"))
  | .spreadTypeMismatch .. =>
    report (some "Only spread parameters or imports whose value is a list") none
  | .cyclicImport chain =>
    report
      (some ("Review the import graph ('short imports <file>') " ++
        "and remove the circular reference"))
      (some (s!"Circular import chain detected: {chain}. " ++
        "Modules cannot import themselves directly or indirectly"))
  | .importDepthExceeded .. =>
    report
      (some "Raise 'max_import_depth' in the configuration file if the nesting is intended") none
  | .readFailed .. | .importPathFailed .. =>
    report
      (some ("Check that the module file exists; relative import paths are resolved " ++
        "against the importing file's directory")) none
  | .conversionFailed .. =>
    report none
      (some ("The module evaluated successfully but its resource could not be converted " ++
        "to the target format"))
  | .emptyDocument .. | .invalidDocument .. | .invalidImportExport .. | .io .. | .yaml ..
  | .json .. | .toml .. | .other .. => report none none

/-- The causes below the outermost message, numbered from one. -/
def causeLines (causes : List String) : String :=
  "".intercalate
    (causes.zipIdx.map fun (cause, i) => s!"\n  {i + 1}: {cause}")

/-- A failure at the root is reported with its advice, and the outermost context is kept in the
details. A missing or forbidden file gets advice of its own, and any other trouble is told with
all its causes. -/
def ofTrouble (trouble : Trouble) : Report :=
  let general : Report :=
    let causes := trouble.messages.drop 1
    let listed := if causes.isEmpty then "" else "\n\nCaused by:" ++ causeLines causes
    ⟨.other (trouble.outermost ++ listed), none, none⟩
  match trouble.root with
  | .failure cause =>
    let report := ofFailure cause.detached
    if trouble.outermost = cause.message then report
    else
      { report with details := some (match report.details with
        | some details => s!"{trouble.outermost}. {details}"
        | none => trouble.outermost) }
  | .io .permissionDenied text =>
    ⟨.other s!"Permission denied: {text}",
      some "Check file ownership and permissions of the module files", none⟩
  | .io .notFound text =>
    ⟨.other s!"File not found: {text}",
      some "Check that the file exists and the path is correct", none⟩
  | .io .other _ | .plain _ => general

def text (report : Report) : String :=
  report.failure.message
    ++ (match report.details with
      | some details => s!"\nDetails: {details}"
      | none => "")
    ++ (match report.suggestion with
      | some suggestion => s!"\nSuggestion: {suggestion}"
      | none => "")

def lines (report : Report) : List String :=
  [s!"error: {report.failure.message}"]
    ++ (report.details.map fun details => s!"details: {details}").toList
    ++ (report.suggestion.map fun suggestion => s!"suggestion: {suggestion}").toList

end Report

end ManifestModules
