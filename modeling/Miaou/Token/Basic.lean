import Miaou.Position
import Miaou.Number.Style
import Miaou.Text.Quoted
import Miaou.Token.Kind

/-!
Tokens: a kind, a payload and the place where the token begins. `Token.lexeme` is the text a fault
report quotes for a token and `Token.listing` its line in a token listing.
-/

namespace Miaou

inductive Payload where
  | none
  | bool (value : Bool)
  | int (value : Int)
  | float (value : Binary64)
  | str (value : String)
  deriving DecidableEq, Repr

structure Token where
  kind : Kind
  payload : Payload
  position : Position
  deriving DecidableEq, Repr

def Payload.lexeme : Payload → String
  | .none => ""
  | .bool true => "vrai"
  | .bool false => "faux"
  | .int n => String.ofList (Digits.ofInt n)
  | .float x => NumberStyle.word.text x
  | .str s => s

/-- The payload in a token listing, after a space; nothing for a token without one. -/
def Payload.listing : Payload → String
  | .none => ""
  | .bool true => " true"
  | .bool false => " false"
  | .int n => " " ++ String.ofList (Digits.ofInt n)
  | .float x => " " ++ NumberStyle.literal.text x
  | .str s => " " ++ Text.inspect s

namespace Token

def newline (p : Position) : Token := ⟨.layout .newline, .none, p⟩

def indent (width line : Nat) : Token := ⟨.layout .indent, .int width, ⟨line, 1⟩⟩

def dedent (width : Nat) (p : Position) : Token := ⟨.layout .dedent, .int width, p⟩

def eof (p : Position) : Token := ⟨.layout .eof, .none, p⟩

/-- Layout tokens stand for no text, whatever their payload. -/
def lexeme (t : Token) : String := if t.kind.isLayout then "" else t.payload.lexeme

def padLeft (width : Nat) (text : String) : String :=
  String.ofList (List.replicate (width - text.length) ' ') ++ text

def padRight (width : Nat) (text : String) : String :=
  text ++ String.ofList (List.replicate (width - text.length) ' ')

def listing (t : Token) : String :=
  padLeft 4 (Digits.text t.position.line) ++ ":" ++ padRight 3 (Digits.text t.position.column) ++
    " " ++ t.kind.name ++ t.payload.listing

end Token

end Miaou
