import ManifestModules.CommandLine.Arguments
import ManifestModules.CommandLine.Evaluation
import ManifestModules.CommandLine.Overview

/-! # Runs

A run loads the settings and does one command. If something goes wrong, nothing
is put out but warnings and a report.
-/

namespace ManifestModules.CommandLine

variable {m : Type → Type} [Monad m]

/-- What a run leaves behind. -/
structure Outcome where
  exitCode : Nat
  output : String
  errors : String
deriving DecidableEq, Repr

def Outcome.ofResult (result : Except Trouble String) (warnings : List String) : Outcome :=
  let lines (texts : List String) : String := String.join (texts.map (· ++ "\n"))
  let warned := warnings.map fun warning => s!"warning: {warning}"
  match result with
  | .ok output => ⟨0, output, lines warned⟩
  | .error trouble => ⟨1, "", lines (warned ++ (Report.ofTrouble trouble).lines)⟩

def Request.perform (request : Request) (files : FileSystem m) (configuration : Configuration) :
    m Outcome := do
  match request with
  | .eval paths params output =>
    return .ofResult (← (evaluationText files configuration params output paths).run) []
  | .imports path view =>
    let (result, warnings) ← overview files configuration view path
    return .ofResult result warnings

def Invocation.run (invocation : Invocation) (surroundings : Surroundings m) : m Outcome := do
  match ← (Configuration.load surroundings invocation.config).run with
  | .ok configuration => invocation.request.perform surroundings.files configuration
  | .error trouble => return .ofResult (.error trouble) []

end ManifestModules.CommandLine
