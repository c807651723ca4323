import ManifestModules.Text.Json
import ManifestModules.Yaml.Char
import ManifestModules.Yaml.Scalar
import ManifestModules.Yaml.Token

/-! # Strings as scalars

A string is written plainly where it reads back as itself, between quotes where
it does not, and as a literal block if it has several lines. White space beside
a line break, and characters that cannot be seen, need double quotes.
-/

namespace ManifestModules.Yaml.Style

def isPrintable (c : Char) : Bool :=
  c = '\n' || (0x20 ≤ c.toNat && c.toNat ≤ 0x7e) || (0xa0 ≤ c.toNat && c.toNat ≤ 0xd7ff)
    || (0xe000 ≤ c.toNat && c.toNat ≤ 0xfffd && c ≠ byteOrderMark) || 0x10000 ≤ c.toNat

/-- A character satisfying `p` is directly followed by one satisfying `q`. -/
def followed (p q : Char → Bool) : List Char → Bool
  | a :: b :: rest => (p a && q b) || followed p q (b :: rest)
  | _ => false

def isSpace (c : Char) : Bool := c = ' '

def isSpaceOrBreak (c : Char) : Bool := isSpace c || isBreak c

def singleQuotable (cs : List Char) : Bool :=
  cs.all isPrintable && !followed isBreak isSpace cs && !followed isSpace isBreak cs

def blockable (cs : List Char) : Bool :=
  cs.all isPrintable && !followed isSpace isBreak cs && !cs.getLast?.any isSpace

def isOpeningIndicator (c : Char) : Bool :=
  isFlowIndicator c || c = '#' || c = '&' || c = '*' || c = '!' || c = '|' || c = '>' || c = '\''
    || c = '"' || c = '%' || c = '@' || c = '\x60'

def badBeginning : List Char → Bool
  | [] => false
  | c :: rest =>
    isOpeningIndicator c || ((c = '-' || c = '?' || c = ':') && blankAhead rest)
      || (c :: rest).take 3 = ['-', '-', '-'] || (c :: rest).take 3 = ['.', '.', '.']

/-- After the first character: a colon before a blank, or a number sign after one. -/
def badInside : List Char → Bool
  | a :: b :: rest =>
    (b = ':' && blankAhead rest) || (b = '#' && (isBlank a || isBreak a)) || badInside (b :: rest)
  | _ => false

/-- What may be written without quotes as far as its characters are concerned. -/
def plainable (cs : List Char) : Bool :=
  singleQuotable cs && !cs.any isBreak && !badBeginning cs && !badInside cs
    && !cs.head?.any isSpaceOrBreak && !cs.getLast?.any isSpaceOrBreak

/-- Read plainly, the string would be something else, or a number with leading zeros. -/
def ambiguous (s : String) : Bool :=
  meaning s ≠ .text || Scalar.zeroLed (Scalar.splitSign s.toList).2

def choose (s : String) : ScalarStyle :=
  let cs := s.toList
  if '\n' ∈ cs then if blockable cs then .literal else .doubleQuoted
  else if plainable cs && !ambiguous s then .plain
  else if singleQuotable cs then .singleQuoted
  else .doubleQuoted

def escapeLetter? (c : Char) : Option Char :=
  match c with
  | '\x00' => some '0'
  | '\x07' => some 'a'
  | '\x08' => some 'b'
  | '\t' => some 't'
  | '\n' => some 'n'
  | '\x0b' => some 'v'
  | '\x0c' => some 'f'
  | '\r' => some 'r'
  | '\x1b' => some 'e'
  | '"' => some '"'
  | '\\' => some '\\'
  | '\x85' => some 'N'
  | '\u2028' => some 'L'
  | '\u2029' => some 'P'
  | _ => none

def codeEscape (c : Char) : List Char :=
  let digits (width : Nat) := (Text.hexDigits width c.toNat).map Char.toUpper
  if c.toNat ≤ 0xff then 'x' :: digits 2
  else if c.toNat ≤ 0xffff then 'u' :: digits 4
  else 'U' :: digits 8

def escape (c : Char) : List Char :=
  match escapeLetter? c with
  | some letter => ['\\', letter]
  | none => if isPrintable c then [c] else '\\' :: codeEscape c

def doubleQuoted (cs : List Char) : List Char :=
  '"' :: cs.flatMap escape ++ ['"']

/-- Pads what follows a line break to the indentation; `broken` tells that one came last. -/
def padLines (indent : Nat) (write : Char → List Char) : (broken : Bool) → List Char → List Char
  | _, [] => []
  | broken, c :: rest =>
    if isBreak c then c :: padLines indent write true rest
    else
      let margin := if broken then List.replicate indent ' ' else []
      margin ++ write c ++ padLines indent write false rest

def singleQuoted (indent : Nat) (cs : List Char) : List Char :=
  let body := padLines indent (fun c => if c = '\'' then ['\'', '\''] else [c]) false cs
  let margin := if cs.getLast?.any isBreak then List.replicate indent ' ' else []
  '\'' :: body ++ margin ++ ['\'']

/-- The indentation indicator of a block that begins with white space. -/
def indentationHint (cs : List Char) : List Char :=
  if cs.head?.any isSpaceOrBreak then ['2'] else []

/-- The chomping indicator that keeps the line breaks at the end of a block as they are. -/
def chompingHint (cs : List Char) : List Char :=
  match cs.reverse with
  | [] => ['-']
  | [last] => if isBreak last then ['+'] else ['-']
  | last :: before :: _ =>
    if !isBreak last then ['-'] else if isBreak before then ['+'] else []

def literal (indent : Nat) (cs : List Char) : List Char :=
  '|' :: indentationHint cs ++ chompingHint cs ++ '\n'
    :: padLines indent (fun c => [c]) true cs

/-- The scalar of a string whose further lines are indented by `indent`. -/
def write (indent : Nat) (s : String) : List Char :=
  match choose s with
  | .literal | .folded => literal indent s.toList
  | .plain => s.toList
  | .singleQuoted => singleQuoted indent s.toList
  | .doubleQuoted => doubleQuoted s.toList

def writeLine (indent : Nat) (s : String) : List Char :=
  let written := write indent s
  if choose s = .literal && s.toList.getLast?.any isBreak then written
  else written ++ ['\n']

/-- The greatest length of a short key, in octets. -/
def shortKeyLength : Nat := 128

def isShortKey (key : String) : Bool :=
  !key.toList.any isBreak && key.utf8ByteSize ≤ shortKeyLength

end ManifestModules.Yaml.Style
