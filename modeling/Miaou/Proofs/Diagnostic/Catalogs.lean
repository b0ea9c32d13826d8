import Miaou.Proofs.Diagnostic.Wording
import Miaou.Proofs.Grammar.Progress
import Miaou.Proofs.Token.Raising

/-!
Reading a script with a catalog at hand. The scanner and the cursor raise what is wrong by its code,
out of the whole catalog of codes, and a code that the catalog lacks would stop them. The reading
comes to what the script is read as without a catalog, with its fault told, so no code is ever
raised but those of a script, and no catalog that has these decides anything.
-/

namespace Miaou

def Verdict.reading {α : Type} : Verdict α → Except Halt α
  | .accepted value => .ok value
  | .rejected d => .error (.rejected d)
  | .unworded code => .error (.unworded code)

namespace Catalog

/-- Reads a script with the catalog at hand: its tokens first, then their structure. -/
def read (c : Catalog) (file source : String) : Except Halt Program := do
  let reporter : Reporter := ⟨c, file, Lines.ofText source⟩
  let ts ← Raising.tokenize reporter (2 * source.length + 2) source
  (Cursor.parse reporter (16 * (ts.length + 1)) ts).result.map Prod.fst

/-- The catalog words the fault of a script and has no other part in its reading. -/
theorem read_eq_parse (c : Catalog) (file source : String) :
    c.read file source = (c.parse file source).reading := by
  have told : c.read file source =
      (Miaou.parse source).mapError (Reporter.halt ⟨c, file, Lines.ofText source⟩) := by
    rw [read, Raising.tokenize_eq source (Nat.le_refl _), Miaou.parse]
    cases Miaou.tokenize source with
    | error fault => rfl
    | ok ts => exact (Cursor.parse_ends _ (Nat.le_refl _)).2
  rw [told, Catalog.parse]
  cases Miaou.parse source with
  | ok p => rfl
  | error fault =>
    simp only [Except.mapError, Reporter.halt, verdict]
    cases c.judge file (Lines.ofText source) fault <;> rfl

/-- With two catalogs that have the codes of a script at hand, both readings come to the same
program or both are rejected. The diagnostics differ in nothing but the definition, which is what
each catalog holds for one and the same of these codes. -/
theorem read_worded {c c' : Catalog} (h : c.WordsScripts) (h' : c'.WordsScripts)
    (file source : String) :
    (∃ p, c.read file source = .ok p ∧ c'.read file source = .ok p) ∨
      ∃ d d' code, c.read file source = .error (.rejected d) ∧
        c'.read file source = .error (.rejected d') ∧
        code.text ∈ scriptCodes ∧ c.get? code = some d.definition ∧
        c'.get? code = some d'.definition ∧ d.code = code ∧ d'.code = code ∧
        d' = { d with definition := d'.definition } := by
  rw [read_eq_parse, read_eq_parse, Catalog.parse, Catalog.parse]
  cases Miaou.parse source with
  | ok p => exact .inl ⟨p, rfl, rfl⟩
  | error fault =>
    obtain ⟨definition, found, rejected⟩ := h.verdict fault
    obtain ⟨definition', found', rejected'⟩ := h'.verdict fault
    rw [rejected, rejected']
    exact .inr ⟨_, _, fault.cause.code, rfl, rfl, fault.cause.text_mem, found, found',
      get?_code found, get?_code found', rfl⟩

theorem read_worded_named :
    standard.WordsScripts ∧
      ∃ c : Catalog, c = ⟨standard.definitions.map fun e => { e with tech := e.name }⟩ ∧
        c.WordsScripts ∧
        ∃ d d', standard.read "chat.miaou" "miaou\nsi x\nmeow" = .error (.rejected d) ∧
          c.read "chat.miaou" "miaou\nsi x\nmeow" = .error (.rejected d') ∧
          d.definition.tech ≠ d'.definition.tech ∧ d' = { d with definition := d'.definition } := by
  have words' : WordsScripts ⟨standard.definitions.map fun e => { e with tech := e.name }⟩ := by
    intro code
    cases code <;> decide
  refine ⟨standard_wordsScripts, _, rfl, words', ?_⟩
  have refused : Miaou.parse "miaou\nsi x\nmeow" =
      .error ⟨.missingElement .colon, ⟨2, 5⟩, ""⟩ := eq_error_of_map (by decide +kernel)
  rcases read_worded standard_wordsScripts words' "chat.miaou" "miaou\nsi x\nmeow" with
    ⟨p, accepted, -⟩ | ⟨d, d', code, rejected, rejected', -, -, -, -, -, same⟩
  · rw [read_eq_parse, Catalog.parse, refused] at accepted
    cases accepted
  · refine ⟨d, d', rejected, rejected', ?_, same⟩
    rw [read_eq_parse, Catalog.parse, refused] at rejected rejected'
    cases rejected
    cases rejected'
    decide

end Catalog

end Miaou
