import Miaou.Text.Printable

/-!
Two ways of quoting a text. `script` writes a string literal of the scripting language, with just
the escapes that are read back there. `inspect` is for listings: besides those escapes it spells
out every character that has no shape of its own by its code point.
-/

namespace Miaou.Text

def scriptChar (c : Char) : List Char :=
  if c = '\\' then ['\\', '\\']
  else if c = '"' then ['\\', '"']
  else if c = '\n' then ['\\', 'n']
  else if c = '\t' then ['\\', 't']
  else if c = '\r' then ['\\', 'r']
  else [c]

def script (cs : List Char) : List Char := '"' :: (cs.flatMap scriptChar ++ ['"'])

def inspectChar (c : Char) : List Char :=
  if c = '\x00' then ['\\', '0']
  else if c = '\t' then ['\\', 't']
  else if c = '\r' then ['\\', 'r']
  else if c = '\n' then ['\\', 'n']
  else if c = '"' then ['\\', '"']
  else if c = '\\' then ['\\', '\\']
  else if isShown c then [c]
  else ['\\', 'u', '\x7b'] ++ Nat.toDigits 16 c.toNat ++ ['\x7d']

def inspect (text : String) : String :=
  String.ofList ('"' :: (text.toList.flatMap inspectChar ++ ['"']))

def unescape (c : Char) : Char :=
  if c = 'n' then '\n' else if c = 't' then '\t' else if c = 'r' then '\r' else c

end Miaou.Text
