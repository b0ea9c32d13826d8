import Miaou.Proofs.Grammar.Relocation
import Miaou.Proofs.Token.Reindented

/-!
Reading a script that is indented anew. Reading the tokens of a script commutes with moving them,
faults included, and tokens that agree up to columns and the widths of the layout marks are the
same once they are moved to the beginnings of their lines; so the program is the same up to
columns, and a fault the same on the same line.
-/

namespace Miaou

def Position.leftmost (p : Position) : Position := ⟨p.line, 1⟩

def Fault.relocate (g : Position → Position) (fault : Fault) : Fault :=
  { fault with position := g fault.position }

namespace Program

variable {g : Position → Position}

@[simp] theorem body_relocate (g : Position → Position) (ts : List Token) :
    body (ts.map (Token.relocate g)) = (body ts).map (Token.relocate g) :=
  List.takeWhile_map ..

theorem finish_relocate (start : g .start = .start) (ts : List Token) :
    finish (ts.map (Token.relocate g)) = g (finish ts) := by
  have first : (ts.map (Token.relocate g)).find? isEof = (ts.find? isEof).map (Token.relocate g) :=
    List.find?_map
  rw [finish, finish, first, List.getLast?_map]
  cases ts.find? isEof with
  | some t => rfl
  | none =>
    cases ts.getLast? with
    | some t => rfl
    | none => exact start.symm

theorem faultOf_relocate (p : Position) (failure : Grammar.Failure) :
    faultOf (g p) ⟨failure.cause, failure.rest.map (Token.relocate g)⟩ =
      (faultOf p failure).relocate g := by
  obtain ⟨cause, rest⟩ := failure
  cases rest with
  | nil => rfl
  | cons t rest =>
    rw [List.map_cons, faultOf, faultOf]
    simp only [Token.lexeme_relocate]
    rfl

theorem ofTokens_relocate (start : g .start = .start) (ts : List Token) :
    ofTokens (ts.map (Token.relocate g)) =
      ((ofTokens ts).map (relocate g)).mapError (Fault.relocate g) := by
  rw [ofTokens, ofTokens, body_relocate, Grammar.script_relocate, finish_relocate start]
  cases Grammar.script (body ts) with
  | ok p => rfl
  | error failure => exact congrArg Except.error (faultOf_relocate _ failure)

end Program

/-- Two readings give programs that are the same up to columns, or the same fault on the same
line. -/
def ParsedAlike (found found' : Except Fault Program) : Prop :=
  (∃ p p', found = .ok p ∧ found' = .ok p' ∧
    p'.relocate Position.leftmost = p.relocate Position.leftmost) ∨
  ∃ fault fault', found = .error fault ∧ found' = .error fault' ∧ fault'.cause = fault.cause ∧
    fault'.position.line = fault.position.line ∧ fault'.text = fault.text

theorem Token.Reindents.leftmost {f : Nat → Nat} {t t' : Token} (h : t.Reindents f t') :
    t'.relocate Position.leftmost = t.relocate Position.leftmost := by
  obtain ⟨kind, payload, p⟩ := t
  obtain ⟨kind', payload', p'⟩ := t'
  obtain ⟨rfl, line, payloads⟩ := h
  have place : p'.leftmost = p.leftmost := congrArg (Position.mk · 1) line
  rw [relocate, relocate, place]
  cases text : kind'.isLayout with
  | true => rfl
  | false =>
    have plain : ¬(kind' = .layout .indent ∨ kind' = .layout .dedent) := by
      rintro (rfl | rfl) <;> cases text
    have same : payload' = payload := (if_neg plain).mp payloads
    rw [same]

theorem parsedAlike_of_leftmost {ts ts' : List Token}
    (same : ts'.map (Token.relocate Position.leftmost) =
      ts.map (Token.relocate Position.leftmost)) :
    ParsedAlike (Program.ofTokens ts) (Program.ofTokens ts') := by
  have read := congrArg Program.ofTokens same
  rw [Program.ofTokens_relocate rfl, Program.ofTokens_relocate rfl] at read
  cases found : Program.ofTokens ts with
  | ok p =>
    cases found' : Program.ofTokens ts' with
    | ok p' =>
      rw [found, found'] at read
      exact .inl ⟨p, p', rfl, rfl, Except.ok.inj read⟩
    | error fault' =>
      rw [found, found'] at read
      cases read
  | error fault =>
    cases found' : Program.ofTokens ts' with
    | ok p' =>
      rw [found, found'] at read
      cases read
    | error fault' =>
      rw [found, found'] at read
      have moved : fault'.relocate Position.leftmost = fault.relocate Position.leftmost :=
        Except.error.inj read
      exact .inr ⟨fault, fault', rfl, rfl, congrArg (fun fault => fault.cause) moved,
        congrArg (fun fault => fault.position.line) moved, congrArg (fun fault => fault.text) moved⟩

theorem forall₂_leftmost {f : Nat → Nat} {ts ts' : List Token}
    (h : List.Forall₂ (Token.Reindents f) ts ts') :
    ts'.map (Token.relocate Position.leftmost) = ts.map (Token.relocate Position.leftmost) := by
  induction h with
  | nil => rfl
  | cons token _ ih => rw [List.map_cons, List.map_cons, token.leftmost, ih]

/-- Only the order of indentation widths matters: a script that is indented anew has the tokens of
the script up to columns and the widths of the layout marks and the same program up to columns, or
the same fault on the same line. -/
theorem reindented_alike {f : Nat → Nat} (mono : StrictMono f) (zero : f 0 = 0)
    {source source' : String} (h : Reindented f source.toList source'.toList) :
    ReadAlike f (tokenize source) (tokenize source') ∧
      ParsedAlike (parse source) (parse source') := by
  have alike := tokenize_reindented mono zero h
  refine ⟨alike, ?_⟩
  rw [parse, parse]
  rcases alike with ⟨ts, ts', found, found', same⟩ | ⟨fault, fault', found, found', same⟩
  · rw [found, found']
    exact parsedAlike_of_leftmost (forall₂_leftmost same)
  · rw [found, found']
    exact .inr ⟨fault, fault', rfl, rfl, same⟩

theorem reindented_alike_doubled :
    Reindented (2 * ·) (String.ofList ['x', '\n', ' ', 'y']).toList
        (String.ofList ['x', '\n', ' ', '\r', ' ', 'y']).toList ∧
      ReadAlike (2 * ·) (tokenize (String.ofList ['x', '\n', ' ', 'y']))
        (tokenize (String.ofList ['x', '\n', ' ', '\r', ' ', 'y'])) ∧
      ParsedAlike (parse (String.ofList ['x', '\n', ' ', 'y']))
        (parse (String.ofList ['x', '\n', ' ', '\r', ' ', 'y'])) := by
  have second : LineStartsAt ['x', '\n', ' ', 'y'] 2 :=
    ⟨['x', '\n'], [' ', 'y'], rfl, Scanner.lineStarts_second, rfl⟩
  have again : Reindented (2 * ·) (String.ofList ['x', '\n', ' ', 'y']).toList
      (String.ofList ['x', '\n', ' ', '\r', ' ', 'y']).toList := by
    rw [String.toList_ofList, String.toList_ofList]
    refine ⟨rfl, fun n row row' hr hr' => ?_⟩
    match n with
    | 0 =>
      cases hr
      cases hr'
      exact ⟨rfl, fun _ => rfl, fun _ _ => rfl⟩
    | 1 =>
      cases hr
      cases hr'
      exact ⟨rfl, fun no => absurd second no, fun _ _ => rfl⟩
    | n + 2 => cases hr
  have mono : StrictMono (2 * · : Nat → Nat) := fun a b less => by
    change 2 * a < 2 * b
    omega
  exact ⟨again, reindented_alike mono rfl again⟩

end Miaou
