import Miaou.Diagnostic.Standard
import Miaou.Proofs.Grammar.Skeleton
import Miaou.Script

/-!
Wording a fault. The diagnostic of a fault takes its definition from the catalog, found under the
code of the cause, and everything else from the fault and the lines of the script. The causes of a
script have twelve codes between them, so a catalog with these codes has a word for every fault.
-/

namespace Miaou

def Fault.diagnostic (fault : Fault) (definition : Definition) (file : String)
    (lines : List String) : Diagnostic where
  definition := definition
  file := file
  position := fault.position
  text := fault.text
  context := contextAround lines fault.position.line Diagnostic.usualRadius
  vars := fault.cause.expected?.toList.map fun expected => ("expected", expected)
  internal := none

@[simp] theorem Code.ofText?_text (code : Code) : ofText? code.text = some code := by
  cases code <;> decide +kernel

theorem Code.text_injective {a b : Code} (h : a.text = b.text) : a = b := by
  have same := congrArg ofText? h
  rw [ofText?_text, ofText?_text] at same
  exact Option.some.inj same

/-- The codes a script can be refused with. -/
def scriptCodes : List String :=
  ["E000", "E001", "E002", "E003", "E004", "E100", "E101", "E102", "E103", "E104", "E301", "E501"]

theorem Cause.text_mem (cause : Cause) : cause.code.text ∈ scriptCodes := by
  cases cause <;> simp only [Cause.code] <;> decide

namespace Catalog

/-- The catalog has a definition for every code of a script. -/
def WordsScripts (c : Catalog) : Prop :=
  ∀ code : Code, code.text ∈ scriptCodes → c.contains code = true

theorem get?_code {c : Catalog} {code : Code} {definition : Definition}
    (h : c.get? code = some definition) : definition.code = code :=
  of_decide_eq_true (List.find?_some h :)

theorem judge_get? (c : Catalog) (file : String) (lines : List String) (fault : Fault) :
    c.judge file lines fault =
      match c.get? fault.cause.code with
      | none => .error ⟨fault.cause.code⟩
      | some definition => .ok (fault.diagnostic definition file lines) := by
  rw [judge, raise]
  cases c.get? fault.cause.code with
  | none => rfl
  | some definition =>
    simp only [Fault.diagnostic]
    cases fault.cause.expected? <;> rfl

variable {α : Type} {c : Catalog} {file : String} {lines : List String}

theorem verdict_error (fault : Fault) {definition : Definition}
    (h : c.get? fault.cause.code = some definition) :
    c.verdict file lines (.error fault : Except Fault α) =
      .rejected (fault.diagnostic definition file lines) := by
  rw [verdict, judge_get?, h]

theorem verdict_rejected {result : Except Fault α} {d : Diagnostic}
    (h : c.verdict file lines result = .rejected d) :
    ∃ fault definition, result = .error fault ∧ c.get? fault.cause.code = some definition ∧
      d = fault.diagnostic definition file lines := by
  cases result with
  | ok value => cases h
  | error fault =>
    cases found : c.get? fault.cause.code with
    | none =>
      rw [verdict, judge_get?, found] at h
      cases h
    | some definition =>
      rw [verdict_error fault found] at h
      cases h
      exact ⟨fault, definition, rfl, found, rfl⟩

theorem WordsScripts.verdict (h : c.WordsScripts) (fault : Fault) :
    ∃ definition, c.get? fault.cause.code = some definition ∧
      c.verdict file lines (.error fault : Except Fault α) =
        .rejected (fault.diagnostic definition file lines) := by
  obtain ⟨definition, found⟩ := Option.isSome_iff_exists.mp (h _ fault.cause.text_mem)
  exact ⟨definition, found, verdict_error fault found⟩

theorem standard_wordsScripts : standard.WordsScripts := by
  intro code
  cases code <;> decide

end Catalog

end Miaou
