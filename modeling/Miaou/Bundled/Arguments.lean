import Miaou.CommandLine.Commands

/-!
A reader of the arguments. Options may stand before and after the command. On one side of it each
of them is given at most once, except the one that asks for more logging; an option given on both
sides counts as it stands behind the command. The first argument that is not in order, or that asks
for help or for the version, ends the reading.
-/

namespace Miaou.Bundled

open CommandLine

inductive Exit where
  | refused | version | help
  deriving DecidableEq, Repr

def usage : String :=
  "usage: meowlang [--format full|compact|json] [--context N] [-v] [-q] " ++
    "check|tokens|ast|explain X\n"

def versionText : String := "meowlang 0.3.0\n"

def Exit.outcome : Exit → Outcome
  | .refused => ⟨2, "", usage⟩
  | .version => ⟨0, versionText, ""⟩
  | .help => ⟨0, usage, ""⟩

structure Given where
  format : Option Format
  radius : Option Nat
  quiet : Bool
  deriving DecidableEq, Repr

def Given.nothing : Given := ⟨none, none, false⟩

def Given.options (before behind : Given) : Options where
  format := (behind.format <|> before.format).getD .full
  radius := (behind.radius <|> before.radius).getD Diagnostic.usualRadius
  quiet := behind.quiet || before.quiet

def formatOf? : String → Option Format
  | "full" => some .full
  | "compact" => some .compact
  | "json" => some .json
  | _ => none

/-- A number of lines: digits, perhaps after a plus sign, of a value below two to the power 64. -/
def radiusOf? (text : String) : Option Nat :=
  let digits := match text.toList with
    | '+' :: ds => ds
    | ds => ds
  if digits ≠ [] && digits.all Char.isDigit then
    let value := Digits.value digits
    if value < UInt64.size then some value else none
  else none

inductive Shape where
  | terminator
  /-- A long option, with the value behind its equals sign. -/
  | long (name : String) (value : Option String)
  /-- Short options behind one hyphen. -/
  | short (letters : List Char)
  | plain (text : String)
  deriving DecidableEq, Repr

def shape (argument : String) : Shape :=
  match argument.toList with
  | ['-', '-'] => .terminator
  | '-' :: '-' :: cs =>
    let name := String.ofList (cs.takeWhile (· ≠ '='))
    match cs.dropWhile (· ≠ '=') with
    | [] => .long name none
    | _ :: value => .long name (some (String.ofList value))
  | '-' :: c :: cs => .short (c :: cs)
  | _ => .plain argument

def Given.setFormat (g : Given) (text : String) : Except Exit Given :=
  match g.format, formatOf? text with
  | none, some format => .ok { g with format := some format }
  | _, _ => .error .refused

def Given.setRadius (g : Given) (text : String) : Except Exit Given :=
  match g.radius, radiusOf? text with
  | none, some radius => .ok { g with radius := some radius }
  | _, _ => .error .refused

def Given.setQuiet (g : Given) : Except Exit Given :=
  if g.quiet then .error .refused else .ok { g with quiet := true }

def letters (early : Bool) (g : Given) : List Char → Except Exit Given
  | [] => .ok g
  | 'v' :: cs => letters early g cs
  | 'q' :: cs => do letters early (← g.setQuiet) cs
  | 'h' :: _ => .error .help
  | 'V' :: _ => .error (if early then .version else .refused)
  | _ => .error .refused

def Given.set (g : Given) (name value : String) : Except Exit Given :=
  match name with
  | "format" => g.setFormat value
  | "context" => g.setRadius value
  | _ => .error .refused

def Given.flag (early : Bool) (g : Given) : String → Option (Except Exit Given)
  | "quiet" => some g.setQuiet
  | "verbose" => some (.ok g)
  | "help" => some (.error .help)
  | "version" => if early then some (.error .version) else none
  | _ => none

/-- Reads what stands behind the command: options and exactly one operand. -/
def behind (g : Given) (operand : Option String) : List String → Except Exit (Given × String)
  | [] =>
    match operand with
    | some text => .ok (g, text)
    | none => .error .refused
  | argument :: more =>
    match shape argument with
    | .terminator =>
      match operand, more with
      | some text, [] => .ok (g, text)
      | none, [text] => .ok (g, text)
      | _, _ => .error .refused
    | .plain text =>
      match operand with
      | some _ => .error .refused
      | none => behind g (some text) more
    | .short cs => do behind (← letters false g cs) operand more
    | .long name (some value) => do behind (← g.set name value) operand more
    | .long name none =>
      match g.flag false name with
      | some next => do behind (← next) operand more
      | none =>
        match more with
        | [] => .error .refused
        | value :: rest =>
          match shape value with
          | .plain text => do behind (← g.set name text) operand rest
          | _ => .error .refused

def commandOf (name operand : String) : Except Exit Command :=
  match name with
  | "explain" => .ok (.explain operand)
  | "check" => if operand = "" then .error .refused else .ok (.check operand)
  | "tokens" => if operand = "" then .error .refused else .ok (.tokens operand)
  | "ast" => if operand = "" then .error .refused else .ok (.ast operand)
  | _ => .error .refused

def before (g : Given) : List String → Except Exit (Command × Options)
  | [] => .error .refused
  | argument :: more =>
    match shape argument with
    | .terminator => .error .refused
    | .plain "help" => .error (if more.length ≤ 1 then .help else .refused)
    | .plain name => do
      let (h, operand) ← behind .nothing none more
      return (← commandOf name operand, g.options h)
    | .short cs => do before (← letters true g cs) more
    | .long name (some value) => do before (← g.set name value) more
    | .long name none =>
      match g.flag true name with
      | some next => do before (← next) more
      | none =>
        match more with
        | [] => .error .refused
        | value :: rest =>
          match shape value with
          | .plain text => do before (← g.set name text) rest
          | _ => .error .refused

def arguments (given : List String) : Except Outcome (Command × Options) :=
  (before .nothing given).mapError Exit.outcome

end Miaou.Bundled
