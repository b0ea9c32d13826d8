import Miaou.Json
import Miaou.Number.Style
import Miaou.Text.Separated

/-!
A writer of JSON documents, on one line or indented by two spaces. Numbers that JSON cannot express
are written as `null`.
-/

namespace Miaou

def NumberStyle.json : NumberStyle where
  half := .even
  plain := fun point => -5 < point && point ≤ 16
  keepsFraction := true
  signsExponent := true

namespace Json

def hex2 (n : Nat) : List Char :=
  let digits := Nat.toDigits 16 n
  List.replicate (2 - digits.length) '0' ++ digits

def quotedChar (c : Char) : List Char :=
  if c = '"' then ['\\', '"']
  else if c = '\\' then ['\\', '\\']
  else if c = '\x08' then ['\\', 'b']
  else if c = '\x0c' then ['\\', 'f']
  else if c = '\n' then ['\\', 'n']
  else if c = '\r' then ['\\', 'r']
  else if c = '\t' then ['\\', 't']
  else if c.toNat < 32 then ['\\', 'u', '0', '0'] ++ hex2 c.toNat
  else [c]

def quoted (text : String) : String :=
  String.ofList ('"' :: (text.toList.flatMap quotedChar ++ ['"']))

def floatText : Binary64 → String
  | .nan => "null"
  | .infinite _ => "null"
  | x => NumberStyle.json.text x

def openBrace : String := "\x7b"

def closeBrace : String := "\x7d"

mutual

def compact : Json → String
  | .null => "null"
  | .bool true => "true"
  | .bool false => "false"
  | .int n => String.ofList (Digits.ofInt n)
  | .float x => floatText x
  | .str s => quoted s
  | .array items => "[" ++ Text.separated "," (compactItems items) ++ "]"
  | .object fields => openBrace ++ Text.separated "," (compactFields fields) ++ closeBrace

def compactItems : List Json → List String
  | [] => []
  | item :: items => item.compact :: compactItems items

def compactFields : List (String × Json) → List String
  | [] => []
  | (key, value) :: fields => (quoted key ++ ":" ++ value.compact) :: compactFields fields

end

def newline (depth : Nat) : String := "\n" ++ String.ofList (List.replicate (2 * depth) ' ')

def block (depth : Nat) (left right : String) (rows : List String) : String :=
  if rows = [] then left ++ right
  else
    left ++ newline (depth + 1) ++ Text.separated ("," ++ newline (depth + 1)) rows ++
      newline depth ++ right

mutual

def indented (depth : Nat) : Json → String
  | .array items => block depth "[" "]" (indentedItems (depth + 1) items)
  | .object fields => block depth openBrace closeBrace (indentedFields (depth + 1) fields)
  | .null => "null"
  | .bool true => "true"
  | .bool false => "false"
  | .int n => String.ofList (Digits.ofInt n)
  | .float x => floatText x
  | .str s => quoted s

def indentedItems (depth : Nat) : List Json → List String
  | [] => []
  | item :: items => item.indented depth :: indentedItems depth items

def indentedFields (depth : Nat) : List (String × Json) → List String
  | [] => []
  | (key, value) :: fields =>
    (quoted key ++ ": " ++ value.indented depth) :: indentedFields depth fields

end

def pretty (json : Json) : String := json.indented 0

end Json

end Miaou
