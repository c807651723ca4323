import ManifestModules.Yaml.Char
import ManifestModules.Yaml.Scalar

/-! # Settings in TOML

A settings file is read as far as settings need the format: tables, dotted and
quoted keys, the four kinds of strings, integers, booleans, and collections
without content or with a single entry. Everything else ends the reading, and
the line where that happens is reported.
-/

namespace ManifestModules.Toml

inductive Setting where
  | string (s : String)
  | integer (n : Int)
  | boolean (b : Bool)
  | emptyArray
  | table (entry : Option (List String × Setting))
deriving Inhabited, Repr

def Setting.isEmpty : Setting → Bool
  | .emptyArray | .table none => true
  | _ => false

inductive Line where
  | blank
  | header (path : List String)
  | entry (path : List String) (setting : Setting)
deriving Repr

/-- Reads something from the front of a text and gives the rest, if it is there. -/
abbrev Read (α : Type) := List Char → Option (α × List Char)

def isBlank (c : Char) : Bool := c = ' ' || c = '\t'

def skipBlanks (cs : List Char) : List Char := cs.dropWhile isBlank

def expect (c : Char) : List Char → Option (List Char)
  | d :: rest => if c = d then some rest else none
  | [] => none

def lineBreak? : List Char → Option (List Char)
  | '\n' :: rest | '\r' :: '\n' :: rest => some rest
  | _ => none

/-- Characters of comments and single-line strings. -/
def isPlain (c : Char) : Bool := c = '\t' || (0x20 ≤ c.toNat && c.toNat ≠ 0x7f)

/-- The text after blanks, a comment and the end of the line. -/
def endLine? (cs : List Char) : Option (List Char) :=
  let rest := match skipBlanks cs with
    | '#' :: comment => comment.dropWhile isPlain
    | rest => rest
  if rest.isEmpty then some [] else lineBreak? rest

def simpleEscape? (c : Char) : Option Char :=
  match c with
  | 'b' => some '\x08'
  | 't' => some '\t'
  | 'n' => some '\n'
  | 'f' => some '\x0c'
  | 'r' => some '\r'
  | '"' => some '"'
  | '\\' => some '\\'
  | _ => none

def escapeWidth? (c : Char) : Option Nat :=
  if c = 'u' then some 4 else if c = 'U' then some 8 else none

/-- Reads the rest of a string between double quotes; `skip` characters of it are already read. -/
def basicString : (skip : Nat) → List Char → Option (List Char × List Char)
  | _, [] => none
  | skip + 1, _ :: rest => basicString skip rest
  | 0, '"' :: rest => some ([], rest)
  | 0, '\\' :: c :: rest =>
    match simpleEscape? c, escapeWidth? c with
    | some d, _ => (basicString 1 (c :: rest)).map fun (s, r) => (d :: s, r)
    | none, some width =>
      match Yaml.Scalar.digits? 16 (rest.take width) with
      | some code =>
        if (rest.take width).length = width && code.isValidChar then
          (basicString (width + 1) (c :: rest)).map fun (s, r) => (Char.ofNat code :: s, r)
        else none
      | none => none
    | none, none => none
  | 0, c :: rest =>
    if isPlain c && c ≠ '\\' then (basicString 0 rest).map fun (s, r) => (c :: s, r) else none

def literalString : List Char → Option (List Char × List Char)
  | [] => none
  | '\'' :: rest => some ([], rest)
  | c :: rest => if isPlain c then (literalString rest).map fun (s, r) => (c :: s, r) else none

/-- The text before three quotes and the text after them. -/
def untilTriple (quote : Char) : List Char → Option (List Char × List Char)
  | a :: b :: c :: rest =>
    if a = quote && b = quote && c = quote then some ([], rest)
    else (untilTriple quote (b :: c :: rest)).map fun (s, r) => (a :: s, r)
  | _ => none

/-- A line break directly after the opening quotes does not count. -/
def dropFirstBreak (cs : List Char) : List Char := (lineBreak? cs).getD cs

/-- Joins the lines of a text whose breaks come after a backslash. -/
def joinLines (cs : List Char) : List Char :=
  let isSpace (c : Char) := isBlank c || c = '\n' || c = '\r'
  let rec go : (joining : Bool) → List Char → List Char
    | _, [] => []
    | joining, c :: rest =>
      if joining && isSpace c then go true rest
      else if c = '\\' && (lineBreak? (skipBlanks rest)).isSome then go true rest
      else c :: go false rest
  go false cs

def string? : Read String
  | '"' :: '"' :: '"' :: rest => do
    let (body, rest) ← untilTriple '"' (dropFirstBreak rest)
    let joined := (joinLines body).flatMap fun c => if c = '\n' then ['\\', 'n'] else [c]
    let (text, after) ← basicString 0 (joined ++ ['"'])
    if after.isEmpty then some (String.ofList text, rest) else none
  | '\'' :: '\'' :: '\'' :: rest => do
    let (body, rest) ← untilTriple '\'' (dropFirstBreak rest)
    some (String.ofList body, rest)
  | '"' :: rest => (basicString 0 rest).map fun (s, r) => (String.ofList s, r)
  | '\'' :: rest => (literalString rest).map fun (s, r) => (String.ofList s, r)
  | _ => none

def isBareKeyChar (c : Char) : Bool := Yaml.isWordChar c

def keyPart? (cs : List Char) : Option (String × List Char) :=
  let word := cs.takeWhile isBareKeyChar
  match cs with
  | '"' :: '"' :: '"' :: _ | '\'' :: '\'' :: '\'' :: _ => none
  | '"' :: _ | '\'' :: _ => string? cs
  | _ => if word.isEmpty then none else some (String.ofList word, cs.drop word.length)

/-- Reads a key with its dots. Each part takes a character at least. -/
def key? : (fuel : Nat) → Read (List String)
  | 0, _ => none
  | fuel + 1, cs => do
    let (part, rest) ← keyPart? (skipBlanks cs)
    match skipBlanks rest with
    | '.' :: rest => (key? fuel rest).map fun (parts, r) => (part :: parts, r)
    | rest => some ([part], rest)

/-- Digits with single underscores between them. -/
def spacedDigits? (radix : Nat) (cs : List Char) : Option Nat :=
  let edges := cs.head? = some '_' || cs.getLast? = some '_'
  let doubled := (cs.zip (cs.drop 1)).any fun (a, b) => a = '_' && b = '_'
  if edges || doubled then none else Yaml.Scalar.digits? radix (cs.filter (· ≠ '_'))

def integer? : List Char → Option Int
  | '0' :: 'x' :: rest => (spacedDigits? 16 rest).map Int.ofNat
  | '0' :: 'o' :: rest => (spacedDigits? 8 rest).map Int.ofNat
  | '0' :: 'b' :: rest => (spacedDigits? 2 rest).map Int.ofNat
  | cs =>
    let (negative, digits) := Yaml.Scalar.splitSign cs
    if digits.length > 1 && digits.head? = some '0' then none
    else (spacedDigits? 10 digits).map fun n => if negative then -(n : Int) else n

def word? (cs : List Char) : Option (Setting × List Char) :=
  let word := cs.takeWhile fun c => isBareKeyChar c || c = '+' || c = '.'
  let rest := cs.drop word.length
  if word = "true".toList then some (.boolean true, rest)
  else if word = "false".toList then some (.boolean false, rest)
  else (integer? word).map fun n => (.integer n, rest)

/-- Passes over white space, comments and line breaks inside an array. -/
def skipLines : (inComment : Bool) → List Char → List Char
  | _, [] => []
  | inComment, c :: rest =>
    if c = '\n' then skipLines false rest
    else if inComment && isPlain c then skipLines true rest
    else if isBlank c || (c = '\r' && rest.head? = some '\n') then skipLines inComment rest
    else if c = '#' then skipLines true rest
    else c :: rest

/-- Reads what a key is set to; an inline table takes two characters at least. -/
def setting? : (fuel : Nat) → Read Setting
  | 0, _ => none
  | fuel + 1, cs =>
    match cs with
    | '[' :: rest => (expect ']' (skipLines false rest)).map fun r => (.emptyArray, r)
    | '\x7b' :: rest =>
      match expect '\x7d' (skipBlanks rest) with
      | some rest => some (.table none, rest)
      | none => do
        let (path, rest) ← key? (rest.length + 1) rest
        let rest ← expect '=' rest
        let (value, rest) ← setting? fuel (skipBlanks rest)
        let rest ← expect '\x7d' (skipBlanks rest)
        some (.table (some (path, value)), rest)
    | '"' :: _ | '\'' :: _ => (string? cs).map fun (s, r) => (.string s, r)
    | _ => word? cs

/-- Reads a line with its end. A header of an array of tables is none that settings need. -/
def line? (cs : List Char) : Option (Line × List Char) :=
  match skipBlanks cs with
  | '[' :: rest => do
    let (path, rest) ← key? (rest.length + 1) rest
    let rest ← (expect ']' rest).bind endLine?
    some (.header path, rest)
  | rest =>
    match endLine? rest with
    | some rest => some (.blank, rest)
    | none => do
      let (path, rest) ← key? (rest.length + 1) rest
      let rest ← expect '=' rest
      let (value, rest) ← setting? (rest.length + 1) (skipBlanks rest)
      let rest ← endLine? rest
      some (.entry path value, rest)

structure Numbered where
  number : Nat
  line : Line
deriving Repr

/-- The number of the line that begins with `rest`, in the text `cs`. -/
def lineNumber (cs rest : List Char) : Nat :=
  ((cs.take (cs.length - rest.length)).filter (· = '\n')).length + 1

/-- Reads the lines of the text `cs` from `rest` on. A line that cannot be read is reported by its
number. -/
def linesFrom (cs : List Char) : (fuel : Nat) → List Char → Except Nat (List Numbered)
  | 0, rest => .error (lineNumber cs rest)
  | fuel + 1, rest =>
    if rest.isEmpty then .ok []
    else
      match line? rest with
      | none => .error (lineNumber cs rest)
      | some (line, after) => do
        let later ← linesFrom cs fuel after
        return ⟨lineNumber cs rest, line⟩ :: later

/-- The lines of a text, which may begin with a byte order mark. -/
def lines (text : String) : Except Nat (List Numbered) :=
  let cs := match text.toList with
    | c :: rest => if c = Yaml.byteOrderMark then rest else c :: rest
    | [] => []
  linesFrom cs (cs.length + 1) cs

end ManifestModules.Toml
