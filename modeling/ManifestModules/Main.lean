import ManifestModules.CommandLine.Run

/-! # The program

The command line over the files and the environment of the process.
-/

namespace ManifestModules.Program

def fileFault : IO.Error → FileFault
  | .noFileOrDirectory .. | .noSuchThing .. => .missing
  | .permissionDenied .. => ⟨.permissionDenied, "Permission denied (os error 13)"⟩
  | .inappropriateType _ code _ => if code = 21 then .isDirectory else .notDirectory
  | error => ⟨.other, toString error⟩

def files : FileSystem IO where
  read path := do
    match ← (IO.FS.readBinFile path).toBaseIO with
    | .error error => return .error (fileFault error)
    | .ok bytes =>
      match String.fromUTF8? bytes with
      | some text => return .ok text
      | none => return .error .notText
  present path := do
    match ← (IO.FS.Handle.mk path .read).toBaseIO with
    | .ok _ | .error (.permissionDenied ..) => return true
    | .error _ => return false

def surroundings : IO (Surroundings IO) := do
  let home ← IO.getEnv "HOME"
  return ⟨files, ← IO.getEnv "SHORT_CONFIG", home.filter (· ≠ "")⟩

def usageLines : List String := [
  "Evaluate parameterized, importable Kubernetes shorthand modules",
  "",
  "Usage: short [OPTIONS] <COMMAND>",
  "",
  "Commands:",
  "  eval     Evaluate module files and print the resolved resources",
  "  imports  Show the import tree of a module file",
  "  help     Print this message",
  "",
  "Options:",
  "  -v, --verbose        Enable debug logging",
  "  -q, --quiet          Only log errors",
  "  -c, --config <PATH>  Path to the configuration file",
  "  -h, --help           Print help",
  "  -V, --version        Print version",
  "",
  "Options of eval:",
  "  -p, --param <KEY=VALUE>  Parameter for the root modules, read as YAML",
  "  -o, --output <OUTPUT>    Output format, yaml or json",
  "",
  "Options of imports:",
  "  -d, --depth <DEPTH>  Show at most this many levels of imports",
  "      --order          Print modules in dependency order"]

end ManifestModules.Program

open ManifestModules CommandLine in
def main (args : List String) : IO UInt32 := do
  match Invocation.ofArguments args with
  | .error stop =>
    match stop with
    | .help => Program.usageLines.forM (IO.println ·)
    | .version => IO.println "short 0.1.0"
    | .misuse misuse => IO.eprintln (misuse.text true)
    return stop.exitCode.toUInt32
  | .ok invocation =>
    let outcome ← invocation.run (← Program.surroundings)
    IO.print outcome.output
    IO.eprint outcome.errors
    return outcome.exitCode.toUInt32
