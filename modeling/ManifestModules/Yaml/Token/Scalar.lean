import ManifestModules.Yaml.Cursor
import ManifestModules.Yaml.Token

/-! # Scalar tokens

The text of plain, quoted and block scalars. Each is read one character at a
time; blanks and line breaks are held back until it is known whether they are
part of the text, and line breaks are then folded.
-/

namespace ManifestModules.Yaml

/-- The text read so far, last character first, and the white space held back after it. -/
structure Folding where
  text : List Char
  /-- Blanks on the line of the last character. -/
  blanks : List Char
  /-- The first line break after the last character. -/
  firstBreak : Option Char
  /-- The line breaks after that one, last one first. -/
  laterBreaks : List Char
  /-- A line break, possibly an escaped one, has been passed since the last character. -/
  brokeLine : Bool
deriving Repr

namespace Folding

def start : Folding := ⟨[], [], none, [], false⟩

def blank (f : Folding) (c : Char) : Folding :=
  if f.brokeLine then f else { f with blanks := c :: f.blanks }

def lineBreak (f : Folding) (c : Char) : Folding :=
  if f.brokeLine then { f with laterBreaks := breakText c :: f.laterBreaks }
  else { f with blanks := [], firstBreak := some (breakText c), brokeLine := true }

def escapedBreak (f : Folding) : Folding :=
  { f with blanks := [], firstBreak := none, laterBreaks := [], brokeLine := true }

/-- Adds what was held back: a single newline becomes a space, of several the first one goes. -/
def release (f : Folding) : Folding :=
  let text :=
    if f.brokeLine then
      match f.firstBreak with
      | some '\n' => if f.laterBreaks.isEmpty then ' ' :: f.text else f.laterBreaks ++ f.text
      | some c => f.laterBreaks ++ c :: f.text
      | none => f.laterBreaks ++ f.text
    else f.blanks ++ f.text
  ⟨text, [], none, [], false⟩

def push (f : Folding) (c : Char) : Folding := { f with text := c :: f.text }

def result (f : Folding) : String := String.ofList f.text.reverse

end Folding

structure ScannedScalar where
  text : String
  cursor : Cursor
  /-- The scalar ended on a later line than its last character. -/
  brokeLine : Bool

namespace Plain

def endsAt (inFlow : Bool) (c : Char) (rest : List Char) : Bool :=
  (c = ':' && blankAhead rest) || (inFlow && isFlowIndicator c)

/-- A colon glued to a flow indicator inside a flow collection. -/
def badColon (inFlow : Bool) (c : Char) (rest : List Char) : Bool :=
  inFlow && c = ':' && match rest with
    | d :: _ => isFlowIndicator d || d = '?'
    | [] => false

/-- Reads on at a character; `afterSpace` tells that white space came before it. -/
def scan (inFlow : Bool) (indent : Nat) :
    List Char → Position → Folding → (afterSpace : Bool) → Except Problem ScannedScalar
  | [], p, f, _ => .ok ⟨f.result, ⟨[], p⟩, f.brokeLine⟩
  | '\r' :: '\n' :: rest, p, f, _ => scan inFlow indent rest (p.nextLine 2) (f.lineBreak '\n') true
  | c :: rest, p, f, afterSpace =>
    if isBlank c then
      if f.brokeLine && p.column < indent && c = '\t' then .error .tabIndentation
      else scan inFlow indent rest p.next (f.blank c) true
    else if isBreak c then scan inFlow indent rest (p.nextLine 1) (f.lineBreak c) true
    else if afterSpace && ((!inFlow && p.column < indent)
        || (p.column = 0 && documentMarkerAhead (c :: rest)) || c = '#') then
      .ok ⟨f.result, ⟨c :: rest, p⟩, f.brokeLine⟩
    else if badColon inFlow c rest then .error .unexpectedColon
    else if endsAt inFlow c rest then .ok ⟨f.result, ⟨c :: rest, p⟩, f.brokeLine⟩
    else scan inFlow indent rest p.next (f.release.push c) false

end Plain

namespace Quoted

/-- A numeric escape of which `missing` digits are still to come. -/
structure Escape where
  missing : Nat
  code : Nat

def simpleEscape? (c : Char) : Option Char :=
  match c with
  | '0' => some '\x00'
  | 'a' => some '\x07'
  | 'b' => some '\x08'
  | 't' | '\t' => some '\t'
  | 'n' => some '\n'
  | 'v' => some '\x0b'
  | 'f' => some '\x0c'
  | 'r' => some '\r'
  | 'e' => some '\x1b'
  | ' ' => some ' '
  | '"' => some '"'
  | '/' => some '/'
  | '\\' => some '\\'
  | 'N' => some '\x85'
  | '_' => some '\xa0'
  | 'L' => some '\u2028'
  | 'P' => some '\u2029'
  | _ => none

def escapeWidth? (c : Char) : Option Nat :=
  match c with
  | 'x' => some 2
  | 'u' => some 4
  | 'U' => some 8
  | _ => none

/-- Reads on inside single quotes, where only the quote itself is written twice. -/
def scanSingle : List Char → Position → Folding → Except Problem ScannedScalar
  | [], _, _ => .error .unexpectedEnd
  | '\r' :: '\n' :: rest, p, f => scanSingle rest (p.nextLine 2) (f.lineBreak '\n')
  | '\'' :: '\'' :: rest, p, f => scanSingle rest (p.advance 2) (f.release.push '\'')
  | c :: rest, p, f =>
    if isBlank c then scanSingle rest p.next (f.blank c)
    else if isBreak c then scanSingle rest (p.nextLine 1) (f.lineBreak c)
    else if p.column = 0 && documentMarkerAhead (c :: rest) then .error .unexpectedMarker
    else if c = '\'' then .ok ⟨f.release.result, ⟨rest, p.next⟩, false⟩
    else scanSingle rest p.next (f.release.push c)

/-- Reads on inside double quotes; `escape` is a numeric escape that is not complete. -/
def scanDouble : List Char → Position → Folding → Option Escape → Except Problem ScannedScalar
  | [], _, _, none => .error .unexpectedEnd
  | c :: rest, p, f, some escape =>
    match hexValue? c with
    | none => .error .badEscapeCode
    | some digit =>
      let code := 16 * escape.code + digit
      match escape.missing with
      | missing + 2 => scanDouble rest p.next f (some ⟨missing + 1, code⟩)
      | _ =>
        if code.isValidChar then scanDouble rest p.next (f.push (Char.ofNat code)) none
        else .error .badEscapeCode
  | [], _, _, some _ => .error .badEscapeCode
  | '\r' :: '\n' :: rest, p, f, none => scanDouble rest (p.nextLine 2) (f.lineBreak '\n') none
  | '\\' :: '\r' :: '\n' :: rest, p, f, none =>
    scanDouble rest (p.next.nextLine 2) f.release.escapedBreak none
  | '\\' :: c :: rest, p, f, none =>
    if isBreak c then scanDouble rest (p.next.nextLine 1) f.release.escapedBreak none
    else
      match simpleEscape? c, escapeWidth? c with
      | some d, _ => scanDouble rest (p.advance 2) (f.release.push d) none
      | none, some width => scanDouble rest (p.advance 2) f.release (some ⟨width, 0⟩)
      | none, none => .error .unknownEscape
  | c :: rest, p, f, none =>
    if isBlank c then scanDouble rest p.next (f.blank c) none
    else if isBreak c then scanDouble rest (p.nextLine 1) (f.lineBreak c) none
    else if p.column = 0 && documentMarkerAhead (c :: rest) then .error .unexpectedMarker
    else if c = '"' then .ok ⟨f.release.result, ⟨rest, p.next⟩, false⟩
    else if c = '\\' then .error .unknownEscape
    else scanDouble rest p.next (f.release.push c) none

end Quoted

namespace Block

inductive Chomping where
  | strip
  | clip
  | keep
deriving DecidableEq, Repr

structure Header where
  literal : Bool
  chomping : Chomping
  /-- The indentation of the collection around it; -1 at the top. -/
  parentIndent : Int

structure State where
  text : List Char
  /-- The line break after the last line of text. -/
  lastBreak : Option Char
  /-- The line breaks of the empty lines after it, last one first. -/
  emptyLines : List Char
  /-- The last line of text began with a blank. -/
  blankStart : Bool
  /-- The indentation of the text; 0 as long as it is not known. -/
  indent : Nat
  /-- The deepest column at which an empty line ended so far. -/
  deepest : Nat

namespace State

/-- Adds what was held back before the next line of text. In a folded scalar a newline between
two lines that begin with no blank becomes a space, or goes if empty lines follow it. -/
def beginLine (s : State) (literal blank : Bool) : State :=
  let foldable := !literal && s.lastBreak = some '\n' && !s.blankStart && !blank
  let text :=
    if foldable then
      if s.emptyLines.isEmpty then ' ' :: s.text else s.emptyLines ++ s.text
    else s.emptyLines ++ s.lastBreak.toList ++ s.text
  { s with text, lastBreak := none, emptyLines := [], blankStart := blank }

def settleIndent (s : State) (parentIndent : Int) : State :=
  if s.indent = 0 then { s with indent := max s.deepest (max (parentIndent + 1) 1).toNat } else s

def finish (s : State) (chomping : Chomping) : String :=
  let tail := match chomping with
    | .strip => []
    | .clip => s.lastBreak.toList
    | .keep => s.emptyLines ++ s.lastBreak.toList
  String.ofList (tail ++ s.text).reverse

end State

def scan (h : Header) :
    List Char → Position → State → (inLine : Bool) → Except Problem ScannedScalar
  | [], p, s, _ => .ok ⟨s.finish h.chomping, ⟨[], p⟩, false⟩
  | '\r' :: '\n' :: rest, p, s, true =>
    scan h rest (p.nextLine 2) { s with lastBreak := some '\n' } false
  | c :: rest, p, s, true =>
    if isBreak c then
      scan h rest (p.nextLine 1) { s with lastBreak := some (breakText c) } false
    else scan h rest p.next { s with text := c :: s.text } true
  | '\r' :: '\n' :: rest, p, s, false =>
    scan h rest (p.nextLine 2)
      { s with emptyLines := '\n' :: s.emptyLines, deepest := max s.deepest p.column } false
  | c :: rest, p, s, false =>
    let margin := s.indent = 0 || p.column < s.indent
    if margin && c = ' ' then scan h rest p.next s false
    else if margin && c = '\t' then .error .tabIndentation
    else
      let s := { s with deepest := max s.deepest p.column }
      if isBreak c then
        scan h rest (p.nextLine 1) { s with emptyLines := breakText c :: s.emptyLines } false
      else
        let s := s.settleIndent h.parentIndent
        if p.column = s.indent then
          let s := s.beginLine h.literal (isBlank c)
          scan h rest p.next { s with text := c :: s.text } true
        else .ok ⟨s.finish h.chomping, ⟨c :: rest, p⟩, false⟩

def chompingOf? (c : Char) : Option Chomping :=
  if c = '+' then some .keep else if c = '-' then some .strip else none

/-- An indentation indicator, a digit from 1 to 9. -/
def incrementOf? (c : Char) : Option Nat :=
  if '1' ≤ c ∧ c ≤ '9' then some (c.toNat - '0'.toNat) else none

/-- The indicators after `|` or `>`, in either order. -/
def indicators : List Char → Option Chomping × Option Nat × Nat
  | c :: rest =>
    match chompingOf? c, incrementOf? c with
    | some chomping, _ =>
      match rest.head?.bind incrementOf? with
      | some n => (some chomping, some n, 2)
      | none => (some chomping, none, 1)
    | none, some n =>
      match rest.head?.bind chompingOf? with
      | some chomping => (some chomping, some n, 2)
      | none => (none, some n, 1)
    | none, none => (none, none, 0)
  | [] => (none, none, 0)

def read (literal : Bool) (parentIndent : Int) (cursor : Cursor) : Except Problem ScannedScalar :=
  let cursor := cursor.skip 1
  let (chomping, increment, width) := indicators cursor.rest
  let cursor := (cursor.skip width).skipBlanksAndComment
  if breakAhead cursor.rest then
    let cursor := cursor.skipBreak
    let indent := match increment with
      | some n => if parentIndent ≥ 0 then parentIndent.toNat + n else n
      | none => 0
    scan ⟨literal, chomping.getD .clip, parentIndent⟩ cursor.rest cursor.position
      ⟨[], none, [], false, indent, 0⟩ false
  else .error .badBlockHeader

end Block

end ManifestModules.Yaml
