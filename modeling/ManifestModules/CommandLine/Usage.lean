import ManifestModules.Value.Data

/-! # Uses of the command line

The commands with the flags and options that belong to them, and what can be
wrong with the arguments. Asking for help or for the version also ends a run
before any command is done.
-/

namespace ManifestModules.CommandLine

inductive Command where
  | eval
  | imports
deriving DecidableEq, Repr

/-- Where an argument stands: before the command, or after it. -/
inductive Level where
  | top
  | within (command : Command)
deriving DecidableEq, Repr

inductive Flag where
  | verbose
  | quiet
  | order
  | help
  | version
deriving DecidableEq, Repr

inductive Setting where
  | config
  | param
  | output
  | depth
deriving DecidableEq, Repr

inductive Switch where
  | flag (flag : Flag)
  | setting (setting : Setting)
deriving DecidableEq, Repr

namespace Command

def name : Command → String
  | .eval => "eval"
  | .imports => "imports"

def ofName? (name : String) : Option Command :=
  if name = "eval" then some .eval else if name = "imports" then some .imports else none

end Command

namespace Setting

def long : Setting → String
  | .config => "config"
  | .param => "param"
  | .output => "output"
  | .depth => "depth"

def short : Setting → Char
  | .config => 'c'
  | .param => 'p'
  | .output => 'o'
  | .depth => 'd'

def valueName : Setting → String
  | .config => "PATH"
  | .param => "KEY=VALUE"
  | .output => "OUTPUT"
  | .depth => "DEPTH"

def usage (setting : Setting) : String := s!"--{setting.long} <{setting.valueName}>"

end Setting

namespace Switch

def long : Switch → String
  | .flag .verbose => "verbose"
  | .flag .quiet => "quiet"
  | .flag .order => "order"
  | .flag .help => "help"
  | .flag .version => "version"
  | .setting s => s.long

def short? : Switch → Option Char
  | .flag .verbose => some 'v'
  | .flag .quiet => some 'q'
  | .flag .order => none
  | .flag .help => some 'h'
  | .flag .version => some 'V'
  | .setting s => some s.short

def usage : Switch → String
  | .flag f => s!"--{(Switch.flag f).long}"
  | .setting s => s.usage

end Switch

namespace Level

def switches (level : Level) : List Switch :=
  [.flag .verbose, .flag .quiet, .setting .config, .flag .help] ++
    match level with
    | .top => [.flag .version]
    | .within .eval => [.setting .param, .setting .output]
    | .within .imports => [.setting .depth, .flag .order]

def long? (level : Level) (name : String) : Option Switch :=
  level.switches.find? (·.long = name)

def short? (level : Level) (name : Char) : Option Switch :=
  level.switches.find? (·.short? = some name)

end Level

/-- What is wrong with the argument of a parameter. -/
inductive ParameterFault where
  | noEqualsSign (text : String)
  | noName (text : String)
  | value (name : String) (fault : ValueFault)
deriving DecidableEq, Repr

namespace ParameterFault

/-- The fault without what is wrong inside of a value. -/
def headline : ParameterFault → String
  | .noEqualsSign text => s!"expected KEY=VALUE, got '{text}'"
  | .noName text => s!"missing parameter name in '{text}'"
  | .value name _ => s!"invalid value for '{name}'"

def message (fault : ParameterFault) : String :=
  match fault with
  | .value _ inner => s!"{fault.headline}: {inner.message}"
  | _ => fault.headline

end ParameterFault

inductive CountFault where
  | empty
  | notADigit
  | tooLarge
deriving DecidableEq, Repr

def CountFault.message : CountFault → String
  | .empty => "cannot parse integer from empty string"
  | .notADigit => "invalid digit found in string"
  | .tooLarge => "number too large to fit in target type"

inductive Misuse where
  | noArguments
  | noCommand
  | unknownCommand (word : String)
  | unknownArgument (word : String)
  | noFile
  | emptyFile
  | noValue (setting : Setting)
  | badValue (setting : Setting) (text : String)
  | needlessValue (flag : Flag)
  | repeated (switch : Switch)
  | verboseAndQuiet
  | badDepth (text : String) (fault : CountFault)
  | badParameter (text : String) (fault : ParameterFault)
deriving DecidableEq, Repr

namespace Misuse

private def badValueText (setting : Setting) (text reason : String) : String :=
  s!"error: invalid value '{text}' for '{setting.usage}': {reason}"

/-- The text of a misuse; `detailed` tells whether faults inside of values are explained. -/
def text (detailed : Bool) : Misuse → String
  | .noArguments | .noCommand => "error: a command is required: eval, imports or help"
  | .unknownCommand word => s!"error: unrecognized subcommand '{word}'"
  | .unknownArgument word => s!"error: unexpected argument '{word}' found"
  | .noFile => "error: the following required arguments were not provided: <FILE>"
  | .emptyFile => "error: a value is required for '<FILE>' but none was supplied"
  | .noValue setting => s!"error: a value is required for '{setting.usage}' but none was supplied"
  | .badValue setting text => s!"error: invalid value '{text}' for '{setting.usage}'"
  | .needlessValue flag => s!"error: no value is expected for '--{(Switch.flag flag).long}'"
  | .repeated switch => s!"error: the argument '{switch.usage}' cannot be used multiple times"
  | .verboseAndQuiet => "error: the argument '--verbose' cannot be used with '--quiet'"
  | .badDepth text fault => badValueText .depth text fault.message
  | .badParameter text fault =>
    badValueText .param text (if detailed then fault.message else fault.headline)

end Misuse

/-- What ends a run before a command is done. -/
inductive Stop where
  | help
  | version
  | misuse (misuse : Misuse)
deriving DecidableEq, Repr

def Stop.exitCode : Stop → Nat
  | .help | .version => 0
  | .misuse _ => 2

end ManifestModules.CommandLine
