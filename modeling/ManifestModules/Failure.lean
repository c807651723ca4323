/-! # Failures

Everything that can go wrong in reading, importing, filling and converting a
module is one `Failure`. Its wording is `message`, its rough kind `category`.
-/

namespace ManifestModules

inductive IoKind where
  | notFound
  | permissionDenied
  | other
deriving DecidableEq, Repr

inductive Failure where
  | invalidImports (path reason : String)
  | invalidParams (path reason : String)
  | invalidExport (path found : String)
  | emptyDocument (path : String)
  | invalidDocument (path : String) (index : Nat) (found : String)
  | invalidMapKey (path : String) (index : Nat) (found : String)
  | unknownIdentifier (ident module : String) (suggestions : List String)
  | invalidPathIndex (ident segment reason : String)
  | invalidImportExport (name module : String)
  | fillTypeMismatch (hole template found : String)
  | spreadTypeMismatch (hole found : String)
  | cyclicImport (chain : String)
  | importDepthExceeded (path : String) (limit : Nat)
  | readFailed (path reason : String)
  | importPathFailed (rootPath importPath reason : String)
  | conversionFailed (path reason : String)
  | io (kind : IoKind) (text : String)
  | yaml (text : String)
  | json (text : String)
  | toml (text : String)
  | other (text : String)
deriving DecidableEq, Repr

inductive Category where
  | parse
  | resolution
  | type
  | cycle
  | io
  | downstream
  | other
deriving DecidableEq, Repr

namespace Failure

def message : Failure → String
  | .invalidImports path reason => s!"Invalid imports in module {path}: {reason}"
  | .invalidParams path reason => s!"Invalid params in module {path}: {reason}"
  | .invalidExport path found =>
    s!"Module {path} must contain exactly one resource, found {found}"
  | .emptyDocument path => s!"Module {path} contains no documents"
  | .invalidDocument path index found =>
    s!"Document {index} in {path} is not a map (found {found})"
  | .invalidMapKey path index found =>
    s!"Document {index} in {path} has a {found} map key; " ++
      "only string, number and bool keys are supported"
  | .unknownIdentifier ident module _ =>
    s!"Invalid template identifier '{ident}' for module {module}"
  | .invalidPathIndex ident segment reason =>
    s!"Cannot index '{segment}' in template identifier '{ident}': {reason}"
  | .invalidImportExport name module =>
    s!"Import '{name}' of module {module} must export exactly one resource"
  | .fillTypeMismatch hole template found =>
    s!"Template hole '$\x7b{hole}\x7d' in \"{template}\" resolved to a {found}; " ++
      "only strings and numbers can be interpolated"
  | .spreadTypeMismatch hole found =>
    s!"Spread '$\x7b{hole}...\x7d' resolved to a {found}; only lists can be spread"
  | .cyclicImport chain => s!"Circular import detected: {chain}"
  | .importDepthExceeded path limit => s!"Import depth limit of {limit} exceeded at {path}"
  | .readFailed path reason => s!"Failed to read module {path}: {reason}"
  | .importPathFailed rootPath importPath reason =>
    s!"Cannot resolve import path '{importPath}' from {rootPath}: {reason}"
  | .conversionFailed path reason => s!"Failed to convert resource in module {path}: {reason}"
  | .io _ text => s!"IO error: {text}"
  | .yaml text => s!"YAML error: {text}"
  | .json text => s!"JSON error: {text}"
  | .toml text => s!"TOML parsing error: {text}\n"
  | .other text => text

/-- The text of the error that a failure only passes on. -/
def cause? : Failure → Option String
  | .io _ text | .yaml text | .json text => some text
  | .toml text => some (text ++ "\n")
  | _ => none

def category : Failure → Category
  | .invalidImports .. | .invalidParams .. | .invalidExport .. | .emptyDocument ..
  | .invalidDocument .. | .invalidMapKey .. | .yaml .. => .parse
  | .unknownIdentifier .. | .invalidPathIndex .. | .invalidImportExport .. => .resolution
  | .fillTypeMismatch .. | .spreadTypeMismatch .. => .type
  | .cyclicImport .. | .importDepthExceeded .. => .cycle
  | .readFailed .. | .importPathFailed .. | .io .. => .io
  | .conversionFailed .. => .downstream
  | .json .. | .toml .. | .other .. => .other

/-- A failure that came from a file system or a text format, reduced to its message. All other
failures stay as they are. -/
def detached (failure : Failure) : Failure :=
  match failure with
  | .io .. | .yaml .. | .json .. | .toml .. => .other failure.message
  | _ => failure

end Failure

end ManifestModules
