import Miaou.Diagnostic.Basic

/-!
The compact report of a diagnostic, as it is handed to the drawer: the offending text is labelled
with the message for the author, and the advice and a detail of the host stand below it.
-/

namespace Miaou

namespace Report

inductive Kind where
  | warning | error
  deriving DecidableEq, Repr

inductive Color where
  | red
  deriving DecidableEq, Repr

structure Label where
  first : Nat
  last : Nat
  message : String
  color : Color
  deriving DecidableEq, Repr

def Kind.ofSeverity : Severity → Kind
  | .low => .warning
  | .medium => .error
  | .high => .error

/-- The offsets of the offending text; at least one character if the source has one there. -/
def extent (d : Diagnostic) (source : List Char) : Nat × Nat :=
  let start := d.position.offset source
  (start, max start (min (start + max 1 d.text.length) source.length))

end Report

structure Report where
  kind : Report.Kind
  file : String
  offset : Nat
  code : String
  message : String
  colored : Bool
  label : Report.Label
  note : Option String
  help : Option String
  deriving DecidableEq, Repr

def Report.ofDiagnostic (d : Diagnostic) (source : String) (colored : Bool) : Report :=
  let (first, last) := extent d source.toList
  { kind := .ofSeverity d.definition.severity
    file := d.file
    offset := first
    code := d.code.text
    message := d.tech
    colored := colored
    label := { first := first, last := last, message := d.meow, color := .red }
    note := d.internal
    help := if d.suggestion = "" then none else some d.suggestion }

end Miaou
