import Miaou.Diagnostic.Basic
import Miaou.Text.Separated

/-!
The full text of a diagnostic, in sections: where the fault is, its type, the two messages, the
lines around it with a row of carets under the offending text, the mood of the cat, and advice
where the definition has some.
-/

namespace Miaou.Diagnostic

def spaces (n : Nat) : String := String.ofList (List.replicate n ' ')

def carets (n : Nat) : String := String.ofList (List.replicate n '^')

def gutter (line : ContextLine) : String :=
  let digits := Digits.text line.number
  (if line.isFault then ">" else " ") ++ " " ++ spaces (3 - digits.length) ++ digits ++ " | "

def contextRows (d : Diagnostic) (line : ContextLine) : List String :=
  (gutter line ++ line.text) ::
    if line.isFault then
      [spaces ((gutter line).length + d.position.column - 1) ++ carets (max d.text.length 1)]
    else []

def titled (title text : String) : List String :=
  if text = "" then [] else ["", title, text]

def judgementRows (d : Diagnostic) : List String :=
  [d.definition.severity.emoji ++ " ERREUR MEOWLANG [" ++ d.code.text ++ "] — GRIFFURE " ++
      d.definition.severity.label,
    "",
    "Fichier      : " ++ d.file,
    "Ligne        : " ++ Digits.text d.position.line,
    "Colonne      : " ++ Digits.text d.position.column] ++
  (if d.text = "" then [] else ["Instruction  : " ++ d.text]) ++
  ["", "Type         : " ++ d.definition.name] ++
  (match d.internal with
    | none => []
    | some detail => ["Code interne : " ++ detail]) ++
  ["", "Message technique :", d.tech, "", "Message MeowLang 🐱 :", d.meow] ++
  (if d.context = [] then [] else "" :: "Contexte :" :: d.context.flatMap d.contextRows) ++
  ["", "État du chat :", d.definition.mood] ++
  titled "Suggestion du chat 💡 :" d.suggestion ++
  titled "Exemple recommandé :" d.sample ++
  ["", "Fin du jugement.", "Le chat te surveille."]

def judgement (d : Diagnostic) : String := Text.separated "\n" d.judgementRows

/-- The full text with as many lines of context as asked for. -/
def judgementWith (d : Diagnostic) (lines : List String) (radius : Nat) : String :=
  (d.withContext lines radius).judgement

end Miaou.Diagnostic
