import Miaou.Diagnostic.Catalog
import Miaou.Diagnostic.Context
import Miaou.Diagnostic.Template

/-!
Diagnostics: what is told about one fault at one place of a file. Variables keep the order in
which they were first set, and setting one again changes its value in place. `Catalog.judge`
turns the fault of a script into its diagnostic.
-/

namespace Miaou

structure Diagnostic where
  definition : Definition
  file : String
  position : Position
  /-- The offending text; empty where there is none. -/
  text : String
  context : List ContextLine
  vars : List (String × String)
  /-- A detail that comes from the host, such as the reason why a file could not be read. -/
  internal : Option String
  deriving DecidableEq, Repr

namespace Diagnostic

def ofDefinition (definition : Definition) (file : String) (position : Position)
    (text : String) : Diagnostic :=
  { definition, file, position, text, context := [], vars := [], internal := none }

def code (d : Diagnostic) : Code := d.definition.code

/-- Sets one variable of a list, in its place or behind all others. -/
def setVar (name value : String) : List (String × String) → List (String × String)
  | [] => [(name, value)]
  | (other, old) :: vars =>
    if other = name then (other, value) :: vars else (other, old) :: setVar name value vars

def withVar (d : Diagnostic) (name value : String) : Diagnostic :=
  { d with vars := setVar name value d.vars }

def withInternal (d : Diagnostic) (detail : String) : Diagnostic :=
  { d with internal := some detail }

def withContext (d : Diagnostic) (lines : List String) (radius : Nat) : Diagnostic :=
  { d with context := contextAround lines d.position.line radius }

def var? (d : Diagnostic) (name : String) : Option String := Template.value? d.vars name

def render (d : Diagnostic) (template : String) : String := Template.substitute d.vars template

def tech (d : Diagnostic) : String := d.render d.definition.tech

def meow (d : Diagnostic) : String := d.render d.definition.meow

def suggestion (d : Diagnostic) : String := d.render d.definition.suggestion

def sample (d : Diagnostic) : String := d.render d.definition.sample

def usualRadius : Nat := 2

end Diagnostic

namespace Catalog

/-- The diagnostic of a code; with the lines of the source it shows those around the fault. -/
def raise (c : Catalog) (code : Code) (file : String) (position : Position) (text : String)
    (lines : Option (List String)) : Except Unregistered Diagnostic :=
  match c.get? code with
  | none => .error ⟨code⟩
  | some definition =>
    let d := Diagnostic.ofDefinition definition file position text
    match lines with
    | none => .ok d
    | some ls => .ok (d.withContext ls Diagnostic.usualRadius)

/-- The diagnostic of a fault; what was expected becomes a variable. -/
def judge (c : Catalog) (file : String) (lines : List String) (fault : Fault) :
    Except Unregistered Diagnostic :=
  (c.raise fault.cause.code file fault.position fault.text (some lines)).map fun d =>
    match fault.cause.expected? with
    | some expected => d.withVar "expected" expected
    | none => d

end Catalog

end Miaou
