import Miaou.Bundled.Width
import Miaou.Diagnostic.Report
import Miaou.Lines

/-!
A drawer of compact reports: the line at fault with the label underlined, the message below the
middle of it, and the advice. The rows under the line are drawn in cells, one for each character of
the line, as wide as the character is shown. It draws without colors, takes a line to end at a line
feed only, and expects the label to stay on one line.
-/

namespace Miaou.Bundled

structure Underline where
  line : Nat
  text : List Char
  first : Nat
  last : Nat
  middle : Nat
  deriving DecidableEq, Repr

/-- The lines of a text that is not empty; a line feed at the end opens no further line. -/
def shownLines (source : List Char) : List (List Char) :=
  let lines := Lines.cut source
  if lines.getLast? = some [] then lines.dropLast else lines

def locate (number offset : Nat) : List (List Char) → Nat × List Char × Nat
  | [] => (number, [], offset)
  | [line] => (number, line, offset)
  | line :: lines =>
    if offset ≤ line.length then (number, line, offset)
    else locate (number + 1) (offset - (line.length + 1)) lines

def underline (label : Report.Label) (source : List Char) : Underline :=
  let (line, text, first) := locate 1 label.first (shownLines source)
  let before := label.first - first
  { line, text := Text.trimRight text, first, last := label.last - before,
    middle := (label.first + label.last) / 2 - before }

def cellWidth (column : Nat) (c : Char) : Nat :=
  if c = '\t' then (column / 4 + 1) * 4 - column
  else if Text.isBlank c then 1
  else charWidth c

def shownChar (column : Nat) (c : Char) : List Char :=
  if c = '\t' then List.replicate (cellWidth column c) ' '
  else if Text.isBlank c then [' ']
  else [c]

def widthAt (text : List Char) (column : Nat) : Nat :=
  match text[column]? with
  | some c => cellWidth column c
  | none => 1

def cell (width : Nat) (head fill : Char) : List Char :=
  match width with
  | 0 => []
  | n + 1 => head :: List.replicate n fill

def row (u : Underline) (draw : Nat → Char × Char) : List Char :=
  (List.range (u.last + 2)).flatMap fun column =>
    cell (widthAt u.text column) (draw column).1 (draw column).2

def lineRow (u : Underline) : List Char :=
  row u fun column =>
    if column = u.middle then if u.first = u.last then ('│', ' ') else ('┬', '─')
    else if u.first ≤ column && column < u.last then ('─', '─')
    else (' ', ' ')

def branchRow (u : Underline) : List Char :=
  row u fun column =>
    if column = u.middle then ('╰', '─')
    else if u.middle < column then ('─', '─')
    else (' ', ' ')

def kindName : Report.Kind → String
  | .warning => "Warning"
  | .error => "Error"

def heading (r : Report) : String :=
  "[" ++ r.code ++ "] " ++ kindName r.kind ++ ": " ++ r.message

def remark (bar title : String) : Option String → List String
  | none => []
  | some text => [bar, bar ++ title ++ text]

def rows (r : Report) (source : List Char) : List String :=
  let u := underline r.label source
  let number := Digits.text u.line
  let margin := String.ofList (List.replicate (number.length + 2) ' ')
  let bar := margin ++ "│ "
  let shown := String.ofList (u.text.mapIdx shownChar).flatten
  [heading r,
    margin ++ "╭─[" ++ r.file ++ ":" ++ number ++ ":" ++ Digits.text (u.first + 1) ++ "]",
    margin ++ "│",
    " " ++ number ++ " │ " ++ shown,
    bar ++ String.ofList (lineRow u),
    bar ++ String.ofList (branchRow u) ++ " " ++ r.label.message] ++
  remark bar "Help: " r.help ++
  remark bar "Note: " r.note ++
  [String.ofList (List.replicate (number.length + 2) '─') ++ "╯"]

/-- The report over a source; over an empty one there is only its heading. -/
def draw (r : Report) (source : String) : String :=
  let chars := source.toList
  let rows := if chars = [] then [heading r] else rows r chars
  String.join (rows.map (· ++ "\n"))

end Miaou.Bundled

namespace Miaou

def Diagnostic.report (d : Diagnostic) (source : String) : String :=
  Bundled.draw (.ofDiagnostic d source false) source

end Miaou
