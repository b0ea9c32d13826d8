import Miaou.Diagnostic.Code

/-!
The catalog of faults. It holds at most one definition for each code, in the order of the codes;
registering a definition replaces the one that the code had.
-/

namespace Miaou

inductive Severity where
  | low | medium | high
  deriving DecidableEq, Repr

namespace Severity

def name : Severity → String
  | .low => "Low"
  | .medium => "Medium"
  | .high => "High"

def label : Severity → String
  | .low => "FAIBLE"
  | .medium => "MOYENNE"
  | .high => "FORTE"

def emoji : Severity → String
  | .low => "😺"
  | .medium => "😾"
  | .high => "🙀"

end Severity

/-- What is said about a code. All texts but the name and the mood are templates. -/
structure Definition where
  code : Code
  name : String
  severity : Severity
  /-- The technical message. -/
  tech : String
  /-- The message for the author of the script. -/
  meow : String
  mood : String
  suggestion : String
  sample : String
  deriving DecidableEq, Repr

structure Catalog where
  definitions : List Definition
  deriving DecidableEq, Repr

/-- A code was raised that has no definition. -/
structure Unregistered where
  code : Code
  deriving DecidableEq, Repr

def Unregistered.message (u : Unregistered) : String :=
  "error code " ++ u.code.text ++ " is not registered in the catalog"

namespace Catalog

def empty : Catalog := ⟨[]⟩

def insert (d : Definition) : List Definition → List Definition
  | [] => [d]
  | e :: es =>
    if d.code.number < e.code.number then d :: e :: es
    else if d.code = e.code then d :: es
    else e :: insert d es

def register (c : Catalog) (d : Definition) : Catalog := ⟨insert d c.definitions⟩

def ofList (ds : List Definition) : Catalog := ds.foldl register empty

def get? (c : Catalog) (code : Code) : Option Definition :=
  c.definitions.find? fun d => d.code = code

def contains (c : Catalog) (code : Code) : Bool := (c.get? code).isSome

def size (c : Catalog) : Nat := c.definitions.length

def isEmpty (c : Catalog) : Bool := c.definitions.isEmpty

end Catalog

end Miaou
