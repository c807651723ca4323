import ManifestModules.CommandLine.Overview
import ManifestModules.CommandLine.Usage
import ManifestModules.Template.Lookup
import ManifestModules.Text.Unicode

/-! # Reading arguments

Arguments are first taken apart into items without looking at any value. The
items are then collected in order. A value that is an argument of its own, and a
run of words, are looked at when the next item comes, and not at all if that is
an argument nobody knows.
-/

namespace ManifestModules.CommandLine

inductive Item where
  | flag (flag : Flag)
  /-- A setting with its value in the same argument. -/
  | attached (setting : Setting) (value : String)
  /-- A setting with its value in the next argument, if there is one. -/
  | detached (setting : Setting) (value : Option String)
  | word (text : String)
  | command (command : Command) (args : List String)
  | stop (stop : Stop)
deriving DecidableEq, Repr

/-- Whether an argument is neither a switch nor the end of the switches. -/
def isWord (arg : String) : Bool :=
  arg = "-" || arg.toList.head? ≠ some '-'

def withoutValue (waiting : Option Setting) : List Item :=
  waiting.toList.map (.detached · none)

/-- The items of an argument behind two hyphens, and the setting that waits for a value. -/
def longItems (level : Level) (text : List Char) : List Item × Option Setting :=
  let name := String.ofList (text.takeWhile (· ≠ '='))
  let value? : Option String := match text.dropWhile (· ≠ '=') with
    | [] => none
    | _ :: value => some (String.ofList value)
  match level.long? name, value? with
  | none, _ => ([.stop (.misuse (.unknownArgument ("--" ++ name)))], none)
  | some (.flag flag), none => ([.flag flag], none)
  | some (.flag flag), some _ => ([.stop (.misuse (.needlessValue flag))], none)
  | some (.setting setting), some value => ([.attached setting value], none)
  | some (.setting setting), none => ([], some setting)

/-- The items of an argument behind one hyphen: flags, and then perhaps a setting, whose value
may follow directly or after an equals sign. -/
def shortItems (level : Level) : List Char → List Item × Option Setting
  | [] => ([], none)
  | c :: rest =>
    match level.short? c, rest with
    | none, _ => ([.stop (.misuse (.unknownArgument s!"-{c}"))], none)
    | some (.flag flag), _ =>
      let (items, waiting) := shortItems level rest
      (.flag flag :: items, waiting)
    | some (.setting setting), [] => ([], some setting)
    | some (.setting setting), '=' :: value => ([.attached setting (String.ofList value)], none)
    | some (.setting setting), value => ([.attached setting (String.ofList value)], none)

def switchItems (level : Level) (arg : String) : List Item × Option Setting :=
  match arg.toList with
  | '-' :: '-' :: text => longItems level text
  | '-' :: text => shortItems level text
  | _ => ([], none)

/-- The word `help` explains a command, if one is named. -/
def helpItem : List String → Item
  | [] => .stop .help
  | name :: rest =>
    if (Command.ofName? name).isNone && name ≠ "help" then
      .stop (.misuse (.unknownCommand name))
    else
      match rest with
      | [] => .stop .help
      | extra :: _ => .stop (.misuse (.unknownCommand extra))

def commandItem (word : String) (rest : List String) : Item :=
  match Command.ofName? word with
  | some command => .command command rest
  | none => if word = "help" then helpItem rest else .stop (.misuse (.unknownCommand word))

/-- The items after the end of the switches. There can be no command any more. -/
def plainItems (level : Level) (args : List String) : List Item :=
  match level, args with
  | .within _, args => args.map .word
  | .top, [] => []
  | .top, word :: _ =>
    if (Command.ofName? word).isSome || word = "help" then
      [.stop (.misuse (.unknownArgument word))]
    else [.stop (.misuse (.unknownCommand word))]

/-- The items of arguments; `waiting` is a setting that waits for its value. -/
def itemsFrom (level : Level) : (waiting : Option Setting) → List String → List Item
  | waiting, [] => withoutValue waiting
  | waiting, arg :: rest =>
    if isWord arg then
      match waiting, level with
      | some setting, _ => .detached setting (some arg) :: itemsFrom level none rest
      | none, .top => [commandItem arg rest]
      | none, .within _ => .word arg :: itemsFrom level none rest
    else if arg = "--" then withoutValue waiting ++ plainItems level rest
    else
      let (items, next) := switchItems level arg
      withoutValue waiting ++ items ++ itemsFrom level next rest

/-- Words beyond the first are unknown arguments of a command that takes one. -/
def limitWords : (taken : Bool) → List Item → List Item
  | _, [] => []
  | false, .word text :: rest => .word text :: limitWords true rest
  | true, .word text :: rest => .stop (.misuse (.unknownArgument text)) :: limitWords true rest
  | taken, item :: rest => item :: limitWords taken rest

def items (level : Level) (args : List String) : List Item :=
  let all := itemsFrom level none args
  if level = .within .imports then limitWords false all else all

/-- A count below `2 ^ 64`: decimal digits after an optional plus sign. -/
def count (text : String) : Except CountFault Nat :=
  let rec digits : Nat → List Char → Except CountFault Nat
    | n, [] => .ok n
    | n, c :: rest =>
      match Template.digitValue? c with
      | none => .error .notADigit
      | some d => if 10 * n + d < twoPow 64 then digits (10 * n + d) rest else .error .tooLarge
  match text.toList with
  | [] => .error .empty
  | ['+'] => .error .notADigit
  | '+' :: rest => digits 0 rest
  | cs => digits 0 cs

def trim (cs : List Char) : List Char :=
  let dropLeading (cs : List Char) := cs.dropWhile Text.Unicode.isWhitespace
  (dropLeading (dropLeading cs).reverse).reverse

/-- A name and, after an equals sign, a value in YAML. A text without characters is itself. -/
def parameter (text : String) : Except ParameterFault (String × Value) :=
  let cs := text.toList
  let name := String.ofList (trim (cs.takeWhile (· ≠ '=')))
  match cs.dropWhile (· ≠ '=') with
  | [] => .error (.noEqualsSign text)
  | _ :: raw =>
    if name = "" then .error (.noName text)
    else if raw.isEmpty then .ok (name, .string "")
    else
      match Value.ofText (String.ofList raw) with
      | .ok value => .ok (name, value)
      | .error fault => .error (.value name fault)

/-- What has been collected at one level. -/
structure Given where
  verbose : Bool := false
  quiet : Bool := false
  order : Bool := false
  config : Option String := none
  params : List (String × Value) := []
  output : Option OutputFormat := none
  depth : Option Nat := none
  words : List String := []

namespace Given

def isEmpty (given : Given) : Bool :=
  !given.verbose && !given.quiet && given.config.isNone

private def once (present : Bool) (switch : Switch) : Except Stop Unit :=
  if present then .error (.misuse (.repeated switch)) else .ok ()

def addFlag (given : Given) : Flag → Except Stop Given
  | .help => .error .help
  | .version => .error .version
  | .verbose => do
    once given.verbose (.flag .verbose)
    return { given with verbose := true }
  | .quiet => do
    once given.quiet (.flag .quiet)
    return { given with quiet := true }
  | .order => do
    once given.order (.flag .order)
    return { given with order := true }

/-- Adds a setting. That it is not repeated is looked at before its value. -/
def addSetting (given : Given) (value : String) : Setting → Except Stop Given
  | .config => do
    once given.config.isSome (.setting .config)
    if value = "" then throw (.misuse (.noValue .config))
    return { given with config := some value }
  | .param => do
    match parameter value with
    | .ok param => return { given with params := given.params ++ [param] }
    | .error fault => throw (.misuse (.badParameter value fault))
  | .output => do
    once given.output.isSome (.setting .output)
    match OutputFormat.ofName? value with
    | some format => return { given with output := some format }
    | none => throw (.misuse (.badValue .output value))
  | .depth => do
    once given.depth.isSome (.setting .depth)
    match count value with
    | .ok depth => return { given with depth := some depth }
    | .error fault => throw (.misuse (.badDepth value fault))

def add (given : Given) : Item → Except Stop Given
  | .flag flag => given.addFlag flag
  | .attached setting value | .detached setting (some value) => given.addSetting value setting
  | .detached setting none => .error (.misuse (.noValue setting))
  | .word text =>
    if text = "" then .error (.misuse .emptyFile)
    else .ok { given with words := given.words ++ [text] }
  | .stop stop => .error stop
  | .command .. => .ok given

def addAll (given : Given) (items : List Item) : Except Stop Given :=
  items.foldlM add given

def checkFlags (given : Given) : Except Stop Unit :=
  if given.verbose && given.quiet then .error (.misuse .verboseAndQuiet) else .ok ()

end Given

structure Collected where
  given : Given
  pending : List Item
  /-- The command at the end of the items, with its arguments. -/
  command : Option (Command × List String)

def Item.isText : Item → Bool
  | .word _ => true
  | _ => false

/-- Collects items until one of them stops the run or is a command. -/
def collect : Given → (pending : List Item) → List Item → Except Stop Collected
  | given, pending, [] => .ok ⟨given, pending, none⟩
  | given, pending, .command command args :: _ => .ok ⟨given, pending, some (command, args)⟩
  | _, _, .stop stop :: _ => .error stop
  | given, pending, item :: rest =>
    match item with
    | .word _ =>
      if pending.all (·.isText) then collect given (pending ++ [item]) rest
      else do collect (← given.addAll pending) [item] rest
    | .detached .. => do collect (← given.addAll pending) [item] rest
    | _ => do collect (← (← given.addAll pending).add item) [] rest

def Collected.finish (collected : Collected) : Except Stop Given :=
  collected.given.addAll collected.pending

inductive Request where
  | eval (files : List String) (params : List (String × Value)) (output : Option OutputFormat)
  | imports (file : String) (view : View)

structure Invocation where
  verbose : Bool
  quiet : Bool
  config : Option String
  request : Request

def Command.request (command : Command) (given : Given) : Except Stop Request :=
  match command, given.words with
  | _, [] => .error (.misuse .noFile)
  | .eval, files => .ok (.eval files given.params given.output)
  | .imports, file :: _ =>
    .ok (.imports file (if given.order then .order else .outline given.depth))

/-- Reads the arguments of a run. What is given after the command wins over what is given before
it. -/
def Invocation.ofArguments (args : List String) : Except Stop Invocation := do
  let outer ← collect {} [] (items .top args)
  match outer.command with
  | none =>
    if (← outer.finish).isEmpty then throw (.misuse .noArguments) else throw (.misuse .noCommand)
  | some (command, args) =>
    let inner ← (← collect {} [] (items (.within command) args)).finish
    inner.checkFlags
    let request ← command.request inner
    let outer ← outer.finish
    outer.checkFlags
    return ⟨outer.verbose || inner.verbose, outer.quiet || inner.quiet,
      inner.config <|> outer.config, request⟩

def Invocation.logLevel (invocation : Invocation) : String :=
  if invocation.verbose then "debug" else if invocation.quiet then "error" else "warn"

end ManifestModules.CommandLine
