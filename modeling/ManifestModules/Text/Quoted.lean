import ManifestModules.Text.Json
import ManifestModules.Text.Unicode

/-! # Quoted text for display

Text between double quotes in which every character is visible: what has no
visible form of its own is written as its code point.
-/

namespace ManifestModules.Text.Quoted

def escapeChar (c : Char) : List Char :=
  if c = '"' then ['\\', '"']
  else if c = '\\' then ['\\', '\\']
  else if c = '\n' then ['\\', 'n']
  else if c = '\r' then ['\\', 'r']
  else if c = '\t' then ['\\', 't']
  else if c = '\x00' then ['\\', '0']
  else if Unicode.isGraphemeExtender c || Unicode.isInvisible c then
    '\\' :: 'u' :: '\x7b' :: hexDigits 1 c.toNat ++ ['\x7d']
  else [c]

def quote (s : String) : String :=
  String.ofList ('"' :: s.toList.flatMap escapeChar ++ ['"'])

end ManifestModules.Text.Quoted
