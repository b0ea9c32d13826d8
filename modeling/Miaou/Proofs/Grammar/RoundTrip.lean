import Miaou.Proofs.Grammar.Nesting
import Miaou.Proofs.Grammar.Rereading

/-!
A script that is read can be printed and read again: its printed text is a script, which is read
as a program that is equal to the first one in everything but positions. Two halves meet at
`Written`: whatever is read is written in names and faithful expressions, and whatever is written
so is read from its printed lines.
-/

namespace Miaou

open Grammar Piece Outline

theorem Program.toList_text (p : Program) :
    p.text.toList =
      "miaou".toList ++ '\n' :: ((Stmt.blockText 0 p.statements).toList ++ "meow".toList) := by
  rw [Program.text, String.toList_append, String.toList_append, List.append_assoc]
  rfl

theorem script_again {ss : List Stmt} {gs : List Token} {t u : Token}
    (word : t.kind = .keyword .miaou) (again : ReadAll gs ss) (word' : u.kind = .keyword .meow) :
    script (t :: .mark .newline :: (gs ++ [u])) = .ok ⟨ss, t.position⟩ := by
  have body : outcome (statements (.mark .newline :: (gs ++ [u]))) = .ok (ss, [u]) :=
    (outcome_statements_skip (skipNewlines_newline rfl _)).trans (again.script word' [])
  have closed : closing [u] = .ok () := by
    rw [closing, if_pos word']
    rfl
  have first := skipNewlines_lacks (@lacks_of_kind _ (.layout .newline) t
    (.mark .newline :: (gs ++ [u])) word (by decide))
  rw [script_open first word]
  exact (bind_of_ok body _).trans (bind_of_ok closed _)

theorem Program.read_back {p : Program} (written : ∀ s ∈ p.statements, Written s)
    (legible : Legible p.outline) : ∃ p', parse p.text = .ok p' ∧ p'.unplaced = p.unplaced := by
  have miaou : Stretch "miaou".toList [.word (.keyword .miaou) "miaou"] :=
    stretch_keyword (by decide) (by decide) (by decide)
  have meow : Stretch "meow".toList [.word (.keyword .meow) "meow"] :=
    stretch_keyword (by decide) (by decide) (by decide)
  obtain ⟨gs, body⟩ : ∃ gs, Body 0 p.statements gs := body_of_printed fun s member =>
    written_printed (written s member) 0 (legible.part (Stmt.outline_subset_lines 0 member))
  obtain ⟨ts, finish, read, same⟩ := tokenize_reads p.toList_text miaou body.reads meow
  obtain ⟨ts', q, ended, inside, -⟩ := tokenize_ended read
  obtain ⟨rfl, -⟩ := List.append_inj' ended rfl
  have whole : script (ts.map Token.unplaced) = .ok p.unplaced := by
    rw [same, List.append_assoc]
    exact script_again rfl body.again rfl
  have moved := (script_relocate (fun _ => .start) ts).symm.trans whole
  rw [parse_of_tokenize read inside]
  cases found : script ts with
  | error failure =>
    rw [found] at moved
    cases moved
  | ok p' =>
    rw [found] at moved
    exact ⟨p', rfl, Except.ok.inj moved⟩

theorem script_written {ts : List Token} {p : Program} (h : Printable ts)
    (read : script ts = .ok p) : ∀ s ∈ p.statements, Written s := by
  obtain ⟨opening, rest, closing, ends, found, word, body, -, -⟩ := script_ok read
  have suffix : opening :: rest <:+ ts := found ▸ List.dropWhile_suffix _
  exact (composes_written h (composes_script body) ⟨opening, by rw [word]; decide, suffix⟩).1

/-- A script that is read can be printed and read again, if its numbers are written without
exponent, it draws no random number from a list of one argument and no statement prints a value
behind the first one with a parenthesis in front. -/
theorem parse_text {source : String} {ts : List Token} {p : Program}
    (tokens : tokenize source = .ok ts) (read : parse source = .ok p)
    (plain : ∀ t ∈ ts, ∀ x, t.payload = .float x → x.Plain) (draws : ¬DrawsOnce (Program.body ts))
    (apart : Apart p.outline) :
    ∃ p', parse p.text = .ok p' ∧ p'.unplaced = p.unplaced ∧ p'.text = p.text := by
  obtain ⟨body, q, tokens', inside, script, mirrors⟩ := parse_mirrors read
  cases tokens.symm.trans tokens'
  rw [Program.body_append inside rfl] at draws
  have printable : Printable body :=
    { read t ht := tokenize_isRead tokens t (List.mem_append_left _ ht)
      plain t ht := plain t (List.mem_append_left _ ht)
      draws := draws }
  obtain ⟨p', again, same⟩ := Program.read_back (script_written printable script)
    ⟨apart, mirrors.inhabited⟩
  exact ⟨p', again, same, Program.text_eq_of_unplaced same⟩

theorem not_drawsOnce {ts : List Token} (h : ∀ t ∈ ts, t.kind ≠ .keyword .aleatoire) :
    ¬DrawsOnce ts := by
  rintro ⟨d, t, rest, inner, e, us, suffix, -, word, -⟩
  exact h t (suffix.subset (by simp)) word

theorem parse_text_blocks :
    ∃ p p', parse "miaou\nsi a:\n  x[0] = b - 1.50\nsinon:\n  ecrire b-1 a\nmeow\n" = .ok p ∧
      p.text = "miaou\nsi a:\n    x[0] = (b - 1.5)\nsinon:\n    ecrire (b - 1) a\nmeow" ∧
      parse p.text = .ok p' ∧ p'.unplaced = p.unplaced ∧ p'.text = p.text := by
  have checked : (parse "miaou\nsi a:\n  x[0] = b - 1.50\nsinon:\n  ecrire b-1 a\nmeow\n").map
      (fun p => (p.text, decide (Apart p.outline))) =
      .ok ("miaou\nsi a:\n    x[0] = (b - 1.5)\nsinon:\n    ecrire (b - 1) a\nmeow", true) := by
    decide +kernel
  have checked' :
      (tokenize "miaou\nsi a:\n  x[0] = b - 1.50\nsinon:\n  ecrire b-1 a\nmeow\n").map
        (fun ts => (ts.all fun t => match t.payload with
          | .float x => decide x.Plain
          | _ => true, (Program.body ts).all (·.kind ≠ .keyword .aleatoire))) =
      .ok (true, true) := by decide +kernel
  cases tokens : tokenize "miaou\nsi a:\n  x[0] = b - 1.50\nsinon:\n  ecrire b-1 a\nmeow\n" with
  | error fault =>
    rw [tokens] at checked'
    cases checked'
  | ok ts =>
    cases read : parse "miaou\nsi a:\n  x[0] = b - 1.50\nsinon:\n  ecrire b-1 a\nmeow\n" with
    | error fault =>
      rw [read] at checked
      cases checked
    | ok p =>
      rw [read] at checked
      rw [tokens] at checked'
      obtain ⟨text, apart⟩ := Prod.mk.inj (Except.ok.inj checked)
      obtain ⟨plain, draws⟩ := Prod.mk.inj (Except.ok.inj checked')
      have plain' : ∀ t ∈ ts, ∀ x, t.payload = .float x → x.Plain := by
        intro t ht x payload
        have found := List.all_eq_true.mp plain t ht
        rw [payload] at found
        exact of_decide_eq_true found
      have draws' : ¬DrawsOnce (Program.body ts) :=
        not_drawsOnce fun t ht => of_decide_eq_true (List.all_eq_true.mp draws t ht)
      obtain ⟨p', again⟩ := parse_text tokens read plain' draws' (of_decide_eq_true apart)
      exact ⟨p, p', rfl, text, again⟩

end Miaou
