import Miaou.CommandLine.Source
import Miaou.Diagnostic.Judgement
import Miaou.Diagnostic.Report
import Miaou.Diagnostic.Standard
import Miaou.Encoding
import Miaou.Script

/-!
What the commands do. A command reads the file it names, writes to the two output channels and may
fail; a failure is told last, unless the program is to be quiet, and decides the exit status.

The reader of arguments, the writer of JSON and the drawer of compact reports come from elsewhere,
and so do the files and the terminal: the commands are functions of all of these. The channels
themselves take whatever is written. Logging is left out.
-/

namespace Miaou.CommandLine

inductive Format where
  | full | compact | json
  deriving DecidableEq, Repr

inductive Command where
  | check (file : String)
  | tokens (file : String)
  | ast (file : String)
  | explain (code : String)
  deriving DecidableEq, Repr

structure Options where
  format : Format
  radius : Nat
  quiet : Bool
  deriving DecidableEq, Repr

structure Outcome where
  status : Nat
  out : String
  err : String
  deriving DecidableEq, Repr

/-- What has been written, and what kept the rest from being written. -/
structure Written where
  text : String
  failure : Option String
  deriving DecidableEq, Repr

def Written.whole (text : String) : Written := ⟨text, none⟩

def Written.line (w : Written) : Written :=
  match w.failure with
  | none => .whole (w.text ++ "\n")
  | some _ => w

structure Libraries where
  /-- Tells the command and its options, or gives the answer to arguments that ask for none. -/
  arguments : List String → Except Outcome (Command × Options)
  /-- Writes a document indented. -/
  encode : Json → Written
  draw : Report → String → Written

structure Host where
  read : String → Except ReadError String
  /-- Whether what is said goes to a terminal. -/
  terminal : Bool

inductive Failure where
  | rejected (code : Code)
  | unknownCode (text : String)
  | unwritten (reason : String)
  | unencoded (reason : String)
  deriving DecidableEq, Repr

def Failure.message : Failure → String
  | .rejected code => "script rejected with " ++ code.text
  | .unknownCode text => Code.unknownMessage text
  | .unwritten reason => "cannot write output: " ++ reason
  | .unencoded reason => "cannot encode JSON: " ++ reason

inductive Stop where
  | failed (failure : Failure)
  /-- The catalog was asked for a code that it does not have. -/
  | crashed (code : Unregistered)
  deriving DecidableEq, Repr

/-- What is written on the way, and what it all comes to. -/
structure Act (α : Type) where
  out : String
  err : String
  result : Except Stop α

namespace Act

variable {α β : Type}

protected def pure (a : α) : Act α := ⟨"", "", .ok a⟩

protected def bind (m : Act α) (f : α → Act β) : Act β :=
  match m.result with
  | .ok a => ⟨m.out ++ (f a).out, m.err ++ (f a).err, (f a).result⟩
  | .error stop => ⟨m.out, m.err, .error stop⟩

instance : Monad Act where
  pure := Act.pure
  bind := Act.bind

def print (text : String) : Act Unit := ⟨text, "", .ok ()⟩

def stop (reason : Stop) : Act α := ⟨"", "", .error reason⟩

def fail (failure : Failure) : Act α := stop (.failed failure)

def say (w : Written) : Act Unit :=
  ⟨"", w.text, match w.failure with
    | none => .ok ()
    | some reason => .error (.failed (.unwritten reason))⟩

def outcome (quiet : Bool) (m : Act Unit) : Outcome :=
  match m.result with
  | .ok () => ⟨0, m.out, m.err⟩
  | .error (.failed failure) =>
    ⟨1, m.out, m.err ++ if quiet then "" else "error: " ++ failure.message ++ "\n"⟩
  | .error (.crashed code) => ⟨101, m.out, m.err ++ code.message ++ "\n"⟩

end Act

section

variable (lib : Libraries) (host : Host) (options : Options)

/-- A diagnostic as it is shown. The compact report needs the source; without one the full text
takes its place. -/
def shown (source : Option String) (d : Diagnostic) : Written :=
  match options.format, source with
  | .json, _ => (lib.encode d.json).line
  | .compact, some text => lib.draw (.ofDiagnostic d text host.terminal) text
  | .full, some text => .whole (d.judgementWith (Lines.ofText text) options.radius ++ "\n")
  | _, none => .whole (d.judgement ++ "\n")

def reject {α : Type} (source : Option String) (d : Diagnostic) : Act α := do
  if options.quiet then pure () else .say (shown lib host options source d)
  .fail (.rejected d.code)

def load (file : String) : Act String :=
  match host.read file with
  | .ok source => pure source
  | .error e =>
    match e.diagnostic .standard file with
    | .ok d => reject lib host options none d
    | .error code => .stop (.crashed code)

def settle {α : Type} (source : String) : Verdict α → Act α
  | .accepted value => pure value
  | .rejected d => reject lib host options (some source) d
  | .unworded code => .stop (.crashed code)

def withScript {α : Type} (file : String) (examine : String → Verdict α) (accept : α → Act Unit) :
    Act Unit := do
  let source ← load lib host options file
  let value ← settle lib host options source (examine source)
  accept value

def printJson (json : Json) : Act Unit :=
  match lib.encode json with
  | ⟨text, none⟩ => .print (text ++ "\n")
  | ⟨_, some reason⟩ => .fail (.unencoded reason)

def approval (file : String) (p : Program) : String :=
  "\x1b[32m😺 " ++ file ++ " : le chat approuve (" ++ Digits.text p.statements.length ++
    " instruction(s))\x1b[0m\n"

def approvalJson (file : String) (p : Program) : Json :=
  .object [("file", .str file), ("ok", .bool true), ("statements", .int p.statements.length)]

def approve (file : String) (p : Program) : Act Unit :=
  if options.quiet then pure ()
  else if options.format = .json then printJson lib (approvalJson file p)
  else .print (approval file p)

def printTokens (ts : List Token) : Act Unit :=
  if options.format = .json then printJson lib (.array (ts.map Token.json))
  else .print (String.join (ts.map fun t => t.listing ++ "\n"))

def printProgram (p : Program) : Act Unit :=
  if options.format = .json then printJson lib p.json else .print (p.text ++ "\n")

def explanationRow (title text : String) : String :=
  if text = "" then "" else title ++ text ++ "\n"

def explanation (d : Definition) : String :=
  d.severity.emoji ++ " [" ++ d.code.text ++ "] " ++ d.name ++ "\n" ++
    "Catégorie : " ++ d.code.family.name ++ "\n" ++
    "Griffure  : " ++ d.severity.label ++ "\n" ++
    "Technique : " ++ d.tech ++ "\n" ++
    "MeowLang  : " ++ d.meow ++ "\n" ++
    explanationRow "Humeur    : " d.mood ++
    explanationRow "Conseil   : " d.suggestion ++
    explanationRow "Exemple   :\n" d.sample

def explain (text : String) : Act Unit :=
  match Code.ofText? text with
  | none => .fail (.unknownCode text)
  | some code =>
    match Catalog.standard.get? code with
    | none => .fail (.unknownCode code.text)
    | some d =>
      if options.format = .json then printJson lib d.json else .print (explanation d)

def act : Command → Act Unit
  | .check file =>
    withScript lib host options file (Catalog.standard.parse file) (approve lib options file)
  | .tokens file =>
    withScript lib host options file (Catalog.standard.tokenize file) (printTokens lib options)
  | .ast file =>
    withScript lib host options file (Catalog.standard.parse file) (printProgram lib options)
  | .explain text => explain lib options text

def perform (command : Command) : Outcome := (act lib host options command).outcome options.quiet

end

/-- The whole program. -/
def respond (lib : Libraries) (host : Host) (arguments : List String) : Outcome :=
  match lib.arguments arguments with
  | .ok (command, options) => perform lib host options command
  | .error outcome => outcome

end Miaou.CommandLine
