import Mathlib.Data.List.Induction
import Miaou.Diagnostic.Judgement
import Miaou.Diagnostic.Standard
import Miaou.Proofs.Diagnostic.Context
import Miaou.Proofs.Diagnostic.Wording
import Miaou.Proofs.Grammar.Locality
import Miaou.Proofs.Token.Found

/-!
Every diagnostic of a script is placed in the script. Tokens and faults are placed where some part
of the script ends, or at the beginning of the line of such a place, and each of these places is on
a line of the script. So the line of a diagnostic is a line of the script and is shown.
-/

namespace Miaou

namespace Position

theorem start_within (cs : List Char) : start.Within cs := ⟨[], cs, rfl, rfl⟩

theorem finish_within (cs : List Char) : (start.after cs).Within cs :=
  ⟨cs, [], (List.append_nil cs).symm, rfl⟩

theorem Within.lineStart {p : Position} {cs : List Char} (h : p.Within cs) :
    Within ⟨p.line, 1⟩ cs := by
  obtain ⟨done, rest, rfl, rfl⟩ := h
  -- Back from the end of the text that is done, to its last line feed.
  induction done using List.reverseRecOn generalizing rest with
  | nil => exact start_within _
  | append_singleton done c ih =>
    by_cases feed : c = '\n'
    · subst feed
      refine ⟨done ++ ['\n'], rest, rfl, ?_⟩
      rw [after_newline]
    · have same : (start.after (done ++ [c])).line = (start.after done).line := by
        simp [next, if_neg feed]
      rw [same, List.append_assoc]
      exact ih _

end Position

theorem tokenize_within {source : String} {ts : List Token} (h : tokenize source = .ok ts) :
    ∀ t ∈ ts, t.position.Within source.toList := by
  intro t ht
  have found := Piece.ofScript_found source.toList
  rcases Layout.mem_tokens h t ht with ⟨-, ending | ⟨width, first, content, place⟩⟩ | token
  · rw [ending]
    exact Position.finish_within _
  · rw [place]
    exact (found _ content).within.lineStart
  · exact (found _ token).within

theorem tokenize_error_within {source : String} {fault : Fault}
    (h : tokenize source = .error fault) : fault.position.Within source.toList := by
  rcases Layout.tokens_error h with found | ⟨width, first, found, rfl⟩
  · exact (Piece.ofScript_found _ _ found).within
  · exact (Piece.ofScript_found _ _ found).within

/-- A script is refused by the lexer, or at one of its tokens. -/
theorem parse_error {source : String} {fault : Fault} (h : parse source = .error fault) :
    tokenize source = .error fault ∨
      ∃ ts t, tokenize source = .ok ts ∧ t ∈ ts ∧ fault.position = t.position ∧
        fault.text = t.lexeme := by
  cases read : tokenize source with
  | error other =>
    rw [parse, read] at h
    cases h
    exact .inl rfl
  | ok ts =>
    obtain ⟨body, p, rfl, inside, -⟩ := tokenize_ended read
    rw [parse_of_tokenize read inside] at h
    obtain ⟨failure, refused, rfl⟩ := mapError_error h
    have suffix := Grammar.script_rest refused
    refine .inr ⟨body ++ [.eof p], ?_⟩
    rw [Program.faultOf]
    cases rest : failure.rest with
    | nil => exact ⟨.eof p, rfl, by simp, rfl, rfl⟩
    | cons t us =>
      rw [rest] at suffix
      exact ⟨t, rfl, List.mem_append_left _ (suffix.subset List.mem_cons_self), rfl, rfl⟩

theorem parse_error_within {source : String} {fault : Fault} (h : parse source = .error fault) :
    fault.position.Within source.toList := by
  rcases parse_error h with refused | ⟨ts, t, read, found, place, -⟩
  · exact tokenize_error_within refused
  · exact place ▸ tokenize_within read t found

/-- What a diagnostic of a script shows. -/
structure Shown (source : String) (d : Diagnostic) : Prop where
  line : 1 ≤ d.position.line ∧ d.position.line ≤ (Lines.ofText source).length
  context : d.context = contextAround (Lines.ofText source) d.position.line 2
  /-- The fault stands on its line, which is shown and marked, and no other line is marked. -/
  marked : ∃ row, (Lines.cut source.toList)[d.position.line - 1]? = some row ∧
    Lines.get? (Lines.ofText source) d.position.line =
      some (String.ofList (Lines.dropReturn row)) ∧
    d.position.column - 1 ≤ row.length ∧
    d.context.filter (·.isFault) = [⟨d.position.line, String.ofList (Text.trimRight row), true⟩]
  judgement : d.judgementWith (Lines.ofText source) 2 = d.judgement

theorem Fault.shown {source : String} {fault : Fault} (h : fault.position.Within source.toList)
    (definition : Definition) (file : String) :
    Shown source (fault.diagnostic definition file (Lines.ofText source)) := by
  obtain ⟨first, row, found, fits⟩ := h.line
  have numbered := Lines.get?_ofText first found
  refine ⟨⟨first, ?_⟩, rfl, ⟨row, found, numbered, fits, ?_⟩, rfl⟩
  · have below := (List.getElem?_eq_some_iff.mp found).1
    change fault.position.line ≤ _
    rw [Lines.ofText, List.length_map]
    omega
  · have marked := contextAround_isFault numbered Diagnostic.usualRadius
    rw [String.toList_ofList, Lines.trimRight_dropReturn] at marked
    exact marked

/-- Every diagnostic of a script shows its own line. -/
theorem Catalog.parse_shown {c : Catalog} {file source : String} {d : Diagnostic}
    (h : c.parse file source = .rejected d) : Shown source d := by
  obtain ⟨fault, definition, refused, -, rfl⟩ := verdict_rejected h
  exact fault.shown (parse_error_within refused) definition file

theorem Catalog.parse_shown_return :
    ∃ d, standard.parse "chat.miaou" "miaou\r\nsi x\r\nmeow\r\n" = .rejected d ∧
      d.position = ⟨2, 6⟩ ∧ Shown "miaou\r\nsi x\r\nmeow\r\n" d := by
  have refused : Miaou.parse "miaou\r\nsi x\r\nmeow\r\n" =
      .error ⟨.missingElement .colon, ⟨2, 6⟩, ""⟩ := eq_error_of_map (by decide +kernel)
  obtain ⟨definition, -, rejected⟩ := standard_wordsScripts.verdict _
  rw [← refused] at rejected
  exact ⟨_, rejected, rfl, parse_shown rejected⟩

end Miaou
