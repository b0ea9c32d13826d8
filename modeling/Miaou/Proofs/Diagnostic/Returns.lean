import Miaou.Proofs.Diagnostic.Context
import Miaou.Proofs.Grammar.Returns
import Miaou.Proofs.Lines
import Miaou.Script

/-!
Diagnostics of a script that has carriage returns before its line feeds. The lines shown with a
fault have no blanks at their ends, so the carriage returns are not shown, and the diagnostic of a
text without a reading is the same with them and without them.
-/

namespace Miaou

open Text

theorem Text.trimRight_cons {cs ds : List Char} (h : trimRight cs = trimRight ds) (c : Char) :
    trimRight (c :: cs) = trimRight (c :: ds) := by
  have same : cs.reverse.dropWhile isBlank = ds.reverse.dropWhile isBlank := List.reverse_inj.mp h
  rw [trimRight, trimRight, List.reverse_cons, List.reverse_cons, List.dropWhile_append,
    List.dropWhile_append, same]

theorem Lines.cut_withReturns (cs : List Char) :
    (cut (withReturns cs)).map trimRight = (cut cs).map trimRight := by
  induction cs with
  | nil => rfl
  | cons c cs ih =>
    by_cases feed : c = '\n'
    · subst feed
      have row := @cut_newline ['\r'] (by decide) (withReturns cs)
      have bare := @cut_newline [] (by decide) cs
      rw [List.singleton_append] at row
      rw [withReturns_newline, row, ← List.nil_append ('\n' :: cs), bare, List.map_cons,
        List.map_cons, ih]
      rfl
    · rw [withReturns_cons feed, cut_cons, cut_cons, if_neg feed, if_neg feed]
      generalize cut (withReturns cs) = rows at ih
      generalize cut cs = rows' at ih
      cases rows with
      | nil =>
        rw [List.map_eq_nil_iff.mp ih.symm]
      | cons row rows =>
        obtain ⟨row', rows', rfl, first, others⟩ := List.map_eq_cons_iff.mp ih.symm
        rw [List.modifyHead_cons, List.modifyHead_cons, List.map_cons, List.map_cons,
          trimRight_cons first.symm, others]

theorem contextAround_ofText (text : String) {line : Nat} (h : line ≠ 0) (radius : Nat) :
    contextAround (Lines.ofText text) line radius =
      ((((Lines.cut text.toList).map trimRight).zipIdx 1).filter
        fun entry => line ≤ entry.2 + radius && entry.2 ≤ line + radius).map
          fun entry => ⟨entry.2, String.ofList entry.1, entry.2 = line⟩ := by
  rw [contextAround, if_neg h, Lines.ofText, List.zipIdx_map, List.zipIdx_map, List.filter_map,
    List.filter_map, List.map_map, List.map_map]
  refine List.map_congr_left fun entry _ => ?_
  simp only [Function.comp_apply, Prod.map, id, String.toList_ofList, Lines.trimRight_dropReturn]

theorem contextAround_crlf (source : String) (line radius : Nat) :
    contextAround (Lines.ofText (crlf source)) line radius =
      contextAround (Lines.ofText source) line radius := by
  by_cases first : line = 0
  · rw [contextAround, contextAround, if_pos first, if_pos first]
  · rw [contextAround_ofText _ first, contextAround_ofText _ first, toList_crlf,
      Lines.cut_withReturns]

theorem Catalog.judge_crlf (c : Catalog) (file source : String) (fault : Fault) :
    c.judge file (Lines.ofText (crlf source)) fault =
      c.judge file (Lines.ofText source) fault := by
  rw [judge, judge, raise, raise]
  cases c.get? fault.cause.code with
  | none => rfl
  | some definition => simp only [Diagnostic.withContext, contextAround_crlf]

/-- Carriage returns before the line feeds of a script do not matter: its tokens are the same but
for the columns of the line feeds and the carriage returns in its strings, or it has no tokens for
the same reason, told in the same diagnostic; and it is accepted if it is accepted without them. -/
theorem crlf_alike (source : String) :
    ((∃ ts ts', tokenize source = .ok ts ∧ tokenize (crlf source) = .ok ts' ∧
        List.Forall₂ Token.WithReturns ts ts') ∨
      ∃ fault, tokenize source = .error fault ∧ tokenize (crlf source) = .error fault ∧
        ∀ (c : Catalog) (file : String),
          c.tokenize file (crlf source) = c.tokenize file source) ∧
    ((∃ p, parse source = .ok p) ↔ ∃ p, parse (crlf source) = .ok p) := by
  refine ⟨?_, parse_crlf source⟩
  have read := tokenize_crlf source
  generalize found : tokenize source = result at read
  generalize found' : tokenize (crlf source) = result' at read
  cases read with
  | ok same => exact .inl ⟨_, _, rfl, rfl, same⟩
  | error fault =>
    refine .inr ⟨fault, rfl, rfl, fun c file => ?_⟩
    rw [Catalog.tokenize, Catalog.tokenize, found, found', Catalog.verdict, Catalog.verdict,
      Catalog.judge_crlf]

end Miaou
