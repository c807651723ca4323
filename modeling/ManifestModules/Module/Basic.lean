import ManifestModules.Section.Shape

/-! # Modules

A module owns the modules it imports: every import site has a module of its own,
so that two sites with the same path never share their progress.
-/

namespace ManifestModules

inductive Conversion (τ : Type) where
  | typed (value : τ)
  | failed (failure : Failure)
deriving Repr

namespace Conversion

variable {τ : Type}

def isTyped : Conversion τ → Bool
  | .typed _ => true
  | .failed _ => false

def value? : Conversion τ → Option τ
  | .typed value => some value
  | .failed _ => none

def failure? : Conversion τ → Option Failure
  | .typed _ => none
  | .failed failure => some failure

def toExcept : Conversion τ → Except Failure τ
  | .typed value => .ok value
  | .failed failure => .error failure

end Conversion

/-- The resource of a module: its tag with the body, a template until the module is evaluated. -/
structure Resource (τ : Type) where
  raw : Entries
  /-- Present once the module is evaluated. -/
  typed : Option (Conversion τ)
deriving Repr

namespace Resource

variable {τ : Type}

def tag? (resource : Resource τ) : Option String :=
  (Table.onlyEntry? resource.raw).map (·.1)

def body? (resource : Resource τ) : Option Value :=
  (Table.onlyEntry? resource.raw).map (·.2)

end Resource

/-- The progress of an import. While its parameters are filled, a second demand is a cycle. -/
inductive ImportState where
  | unevaluated
  | evaluating
  | evaluated
deriving DecidableEq, Repr

/-- An import site, with the imported module of type `μ`. -/
structure Import (μ : Type) where
  name : String
  path : String
  /-- Templates that are filled in the scope of the importing module. -/
  params : Entries
  state : ImportState
  module : μ
deriving Repr

structure Module (τ : Type) where
  path : String
  imports : List (Import (Module τ))
  params : Table Parameter
  evaluated : Bool
  resource : Resource τ
  /-- What was noticed while the imports were read. -/
  diagnostics : List String
deriving Repr

namespace Module

variable {τ : Type}

def import? (module : Module τ) (name : String) : Option (Import (Module τ)) :=
  module.imports.find? (·.name = name)

def defaults (module : Module τ) : Entries :=
  module.params.filterMap fun (name, parameter) => parameter.default.map fun v => (name, v)

/-- The parameters a module is evaluated with: its defaults, overridden by the given ones. -/
def effectiveParams (module : Module τ) (given : Entries) : Entries :=
  Table.override module.defaults given

def typedResult (module : Module τ) : Except Failure τ :=
  match module.resource.typed with
  | some conversion => conversion.toExcept
  | none => .error (.other s!"Module {module.path} has not been evaluated")

mutual

/-- The diagnostics of a module, followed by those of its imports. -/
def allDiagnostics : Module τ → List String
  | ⟨_, imports, _, _, _, diagnostics⟩ => diagnostics ++ importDiagnostics imports

def importDiagnostics : List (Import (Module τ)) → List String
  | [] => []
  | ⟨_, _, _, _, module⟩ :: rest => module.allDiagnostics ++ importDiagnostics rest

end

end Module

end ManifestModules
