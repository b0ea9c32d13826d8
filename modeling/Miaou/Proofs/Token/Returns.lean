import Mathlib.Data.List.Forall2
import Miaou.Proofs.Token.Ending
import Miaou.Proofs.Token.Layout
import Miaou.Proofs.Token.Scan

/-!
Line feeds with carriage returns before them. A carriage return is a blank, so one before each
line feed changes no token: only the marks of the line feeds stand one column further, and a
string that goes over several lines has the carriage returns in its value. Where the text has no
reading, it has none for the same reason at the same place.
-/

namespace Miaou

namespace Text

def withReturns : List Char → List Char
  | [] => []
  | c :: cs => if c = '\n' then '\r' :: '\n' :: withReturns cs else c :: withReturns cs

def withoutReturns (cs : List Char) : List Char := cs.filter (· ≠ '\r')

@[simp] theorem withReturns_newline (cs : List Char) :
    withReturns ('\n' :: cs) = '\r' :: '\n' :: withReturns cs := if_pos rfl

theorem withReturns_cons {c : Char} (h : c ≠ '\n') (cs : List Char) :
    withReturns (c :: cs) = c :: withReturns cs := if_neg h

@[simp] theorem withReturns_append (cs ds : List Char) :
    withReturns (cs ++ ds) = withReturns cs ++ withReturns ds := by
  induction cs with
  | nil => rfl
  | cons c cs ih =>
    by_cases feed : c = '\n'
    · subst feed
      rw [List.cons_append, withReturns_newline, withReturns_newline, ih]
      rfl
    · rw [List.cons_append, withReturns_cons feed, withReturns_cons feed, ih]
      rfl

theorem withReturns_line {cs : List Char} (h : '\n' ∉ cs) : withReturns cs = cs := by
  induction cs with
  | nil => rfl
  | cons c cs ih =>
    rw [List.mem_cons, not_or] at h
    rw [withReturns_cons (Ne.symm h.1), ih h.2]

theorem withReturns_row {row : List Char} (h : '\n' ∉ row) (rest : List Char) :
    withReturns (row ++ '\n' :: rest) = row ++ ['\r'] ++ '\n' :: withReturns rest := by
  rw [withReturns_append, withReturns_line h, withReturns_newline, List.append_assoc]
  rfl

theorem withReturns_append_row (done : List Char) {row : List Char} (h : '\n' ∉ row) :
    withReturns (done ++ row ++ ['\n']) = withReturns done ++ (row ++ ['\r']) ++ ['\n'] := by
  rw [List.append_assoc, withReturns_append, withReturns_row h, ← List.append_assoc]
  rfl

theorem withReturns_cut (cs : List Char) (n : Nat) :
    (withReturns cs).take (withReturns (cs.take n)).length = withReturns (cs.take n) ∧
      (withReturns cs).drop (withReturns (cs.take n)).length = withReturns (cs.drop n) := by
  have whole : withReturns cs = withReturns (cs.take n) ++ withReturns (cs.drop n) := by
    rw [← withReturns_append, List.take_append_drop]
  rw [whole]
  exact ⟨List.take_left, List.drop_left⟩

theorem withoutReturns_cons (c : Char) {cs ds : List Char}
    (h : withoutReturns cs = withoutReturns ds) :
    withoutReturns (c :: cs) = withoutReturns (c :: ds) := by
  rw [withoutReturns, withoutReturns, List.filter_cons, List.filter_cons]
  exact congrArg (fun es => if decide (c ≠ '\r') = true then c :: es else es) h

end Text

open Text

@[simp] theorem Position.after_withReturns (p : Position) (cs : List Char) :
    p.after (withReturns cs) = p.after cs := by
  induction cs generalizing p with
  | nil => rfl
  | cons c cs ih =>
    by_cases feed : c = '\n'
    · subst feed
      simp [ih, next]
    · simp [withReturns_cons feed, ih]

theorem Position.after_withReturns_append (p : Position) (done row : List Char) :
    p.after (withReturns done ++ row) = p.after (done ++ row) := by
  simp

theorem rel_map {α β γ δ : Type} {r : α → β → Prop} {s : γ → δ → Prop} {x : Option α}
    {y : Option β} {f : α → γ} {g : β → δ} (h : Option.Rel r x y)
    (step : ∀ a b, r a b → s (f a) (g b)) : Option.Rel s (x.map f) (y.map g) := by
  cases h with
  | none => exact .none
  | some same => exact .some (step _ _ same)

/-! Lexemes -/

def Payload.withoutReturns : Payload → Payload
  | .str s => .str (String.ofList (Text.withoutReturns s.toList))
  | payload => payload

/-- The payload of a token that is read from the text with carriage returns: the same, but in a
string only up to the carriage returns. -/
def Payload.WithReturns (kind : Kind) (payload payload' : Payload) : Prop :=
  if kind = .string then payload'.withoutReturns = payload.withoutReturns else payload' = payload

theorem Payload.WithReturns.refl (kind : Kind) (payload : Payload) :
    payload.WithReturns kind payload := by
  unfold WithReturns
  split <;> rfl

namespace Lexeme

theorem quoted?_withReturns {quote : Char} (mark : quote = '"' ∨ quote = '\'') (cs : List Char) :
    Option.Rel (fun found found' => withoutReturns found'.1 = withoutReturns found.1 ∧
        found'.2 = (withReturns (cs.take found.2)).length)
      (quoted? quote cs) (quoted? quote (withReturns cs)) := by
  have escape : '\\' ≠ quote := by rcases mark with rfl | rfl <;> decide
  have feed : '\n' ≠ quote := by rcases mark with rfl | rfl <;> decide
  have ret : '\r' ≠ quote := by rcases mark with rfl | rfl <;> decide
  fun_induction quoted? quote cs with
  | case1 => exact .none
  | case2 cs =>
    rw [withReturns_cons feed.symm, quoted?_close]
    exact .some ⟨rfl, by rw [List.take_succ_cons, List.take_zero, withReturns_cons feed.symm]; rfl⟩
  | case3 =>
    rw [withReturns_cons (by decide), withReturns, quoted?.eq_def]
    simp only [if_neg escape, if_true]
    exact .none
  | case4 d ds _ ih =>
    rw [withReturns_cons (by decide)]
    by_cases line : d = '\n'
    · -- The carriage return is what is escaped now, and the line feed stands for itself.
      subst line
      rw [withReturns_newline, quoted?_escape escape, quoted?_plain feed (by decide),
        Option.map_map]
      refine rel_map ih fun found found' like => ⟨?_, ?_⟩
      · exact withoutReturns_cons '\n' like.1
      · simpa [withReturns_cons] using like.2
    · rw [withReturns_cons line, quoted?_escape escape]
      refine rel_map ih fun found found' like => ⟨?_, ?_⟩
      · exact withoutReturns_cons _ like.1
      · simpa [withReturns_cons, line] using like.2
  | case5 c cs other plain ih =>
    by_cases line : c = '\n'
    · subst line
      rw [withReturns_newline, quoted?_plain ret (by decide), quoted?_plain feed (by decide),
        Option.map_map]
      refine rel_map ih fun found found' like => ⟨?_, ?_⟩
      · exact withoutReturns_cons '\n' like.1
      · simpa using like.2
    · rw [withReturns_cons line, quoted?_plain other plain]
      refine rel_map ih fun found found' like => ⟨?_, ?_⟩
      · exact withoutReturns_cons _ like.1
      · simpa [withReturns_cons, line] using like.2

theorem read_withReturns_plain {c : Char} (plain : ¬(c = '"' ∨ c = '\'')) (cs : List Char) :
    read c (withReturns cs) = read c cs ∧
      ∀ l, read c cs = .ok l → '\n' ∉ cs.take (l.size - 1) := by
  obtain ⟨row, ending, rfl, line, stop⟩ := exists_row cs
  cases ending with
  | nil =>
    rw [List.append_nil, withReturns_line line]
    exact ⟨rfl, fun l _ found => line (List.mem_of_mem_take found)⟩
  | cons d us =>
    have feed : d = '\n' := by simpa using stops_cons.mp stop
    subst feed
    have here := read_append (endsLine_newline us) plain row
    have there := read_append (endsLine_blank (by decide : isInline '\r' = true)
      (endsLine_newline (withReturns us))) plain row
    rw [withReturns_row line, List.append_assoc, here]
    refine ⟨there, fun l found => ?_⟩
    have size := read_size_le found
    rw [List.take_append_of_le_length (by omega)]
    exact fun found => line (List.mem_of_mem_take found)

theorem read_withReturns {c : Char} {cs : List Char} {l : Lexeme} (h : read c cs = .ok l) :
    ∃ payload, l.payload.WithReturns l.kind payload ∧
      read c (withReturns cs) =
        .ok ⟨l.kind, payload, (withReturns (cs.take (l.size - 1))).length + 1⟩ := by
  by_cases quote : c = '"' ∨ c = '\''
  · rw [read_string quote] at h ⊢
    have again := quoted?_withReturns quote cs
    unfold readString at h ⊢
    cases found : quoted? c cs with
    | none =>
      rw [found] at h
      cases h
    | some read =>
      rw [found] at h again
      cases h
      generalize quoted? c (withReturns cs) = read' at again
      cases again with
      | @some _ read' same =>
        refine ⟨.str (String.ofList read'.1), ?_, ?_⟩
        · rw [Payload.WithReturns, if_pos rfl, Payload.withoutReturns, Payload.withoutReturns,
            String.toList_ofList, String.toList_ofList, same.1]
        · rw [Nat.add_sub_cancel, ← same.2]
  · obtain ⟨same, line⟩ := read_withReturns_plain quote cs
    have positive := read_size_pos h
    have taken : (cs.take (l.size - 1)).length + 1 = l.size := by
      have bound := read_size_le h
      rw [List.length_take]
      omega
    exact ⟨l.payload, .refl _ _, by rw [same, h, withReturns_line (line l h), taken]⟩

theorem misread_withReturns {c : Char} {cs : List Char} {e : Misreading}
    (h : read c cs = .error e) : read c (withReturns cs) = .error e := by
  by_cases quote : c = '"' ∨ c = '\''
  · rw [read_string quote] at h ⊢
    have again := quoted?_withReturns quote cs
    unfold readString at h ⊢
    cases found : quoted? c cs with
    | none =>
      rw [found] at h again
      cases h
      generalize quoted? c (withReturns cs) = read' at again
      cases again
      rfl
    | some read =>
      rw [found] at h
      cases h
  · rw [(read_withReturns_plain quote cs).1, h]

end Lexeme

/-! Pieces -/

def Token.placeWithReturns (t : Token) : Position :=
  if t.kind = .layout .newline then ⟨t.position.line, t.position.column + 1⟩ else t.position

/-- `t'` is the token `t`, read from the text with carriage returns. -/
structure Token.WithReturns (t t' : Token) : Prop where
  kind : t'.kind = t.kind
  position : t'.position = t.placeWithReturns
  payload : t.payload.WithReturns t.kind t'.payload

theorem Token.WithReturns.refl {t : Token} (h : t.kind ≠ .layout .newline) : t.WithReturns t :=
  ⟨rfl, (if_neg h).symm, .refl _ _⟩

namespace Piece

inductive WithReturns : Piece → Piece → Prop where
  | content (width : Nat) (first : Position) :
      WithReturns (.content width first) (.content width first)
  | token {t t' : Token} (same : t.WithReturns t') : WithReturns (.token t) (.token t')
  | broken (fault : Fault) : WithReturns (.broken fault) (.broken fault)

theorem remark_return {line : List Char} (h : Remark line) : Remark (line ++ ['\r']) := by
  obtain ⟨blanks, note, rfl, blank, rfl | ⟨words, rfl, plain⟩⟩ := h
  · rw [List.append_nil]
    refine remark_of_blanks fun c found => ?_
    rcases List.mem_append.mp found with found | found
    · exact blank c found
    · rw [List.mem_singleton.mp found]
      decide
  · rw [List.append_assoc, List.cons_append]
    exact remark_comment blank (by simp [plain])

/-- The text with carriage returns has the same pieces up to these. -/
theorem Scan.withReturns {fresh : Bool} {done rest : List Char} {pieces : List Piece}
    (h : Scan fresh done rest pieces) :
    ∃ pieces', Scan fresh (Text.withReturns done) (Text.withReturns rest) pieces' ∧
      List.Forall₂ WithReturns pieces pieces' := by
  induction h with
  | @finish fresh done tail idle =>
    rw [withReturns_line (newline_not_mem_remark idle)]
    exact ⟨[], .finish idle, .nil⟩
  | @idle done line rest pieces idle more ih =>
    obtain ⟨pieces', scan, same⟩ := ih
    have plain := newline_not_mem_remark idle
    rw [withReturns_append_row done plain] at scan
    rw [withReturns_row plain]
    exact ⟨pieces', .idle (remark_return idle) scan, same⟩
  | @content done blanks rest c pieces blank begins more ih =>
    obtain ⟨pieces', scan, same⟩ := ih
    have plain := withReturns_line (newline_not_mem_blanks blank)
    rw [withReturns_append, plain, withReturns_cons begins.2.1] at scan ⊢
    have step := Scan.content blank begins scan
    rw [Position.after_withReturns_append] at step
    exact ⟨_, step, .cons (.content _ _) same⟩
  | @newline done line rest pieces idle more ih =>
    obtain ⟨pieces', scan, same⟩ := ih
    have plain := newline_not_mem_remark idle
    rw [withReturns_append_row done plain] at scan
    rw [withReturns_row plain]
    refine ⟨_, .newline (remark_return idle) scan, .cons (.token ⟨rfl, ?_, .refl _ _⟩) same⟩
    rw [Position.after_withReturns_append, ← List.append_assoc, Position.after_append]
    rfl
  | @token done blanks rest c l pieces blank begins read more ih =>
    obtain ⟨pieces', scan, same⟩ := ih
    obtain ⟨payload, alike, read'⟩ := Lexeme.read_withReturns read
    have plain := withReturns_line (newline_not_mem_blanks blank)
    have cut := withReturns_cut (c :: rest) l.size
    have size : (Text.withReturns ((c :: rest).take l.size)).length =
        (Text.withReturns (rest.take (l.size - 1))).length + 1 := by
      rw [← Nat.sub_add_cancel (Lexeme.read_size_pos read), List.take_succ_cons,
        withReturns_cons begins.2.1, List.length_cons, Nat.add_sub_cancel]
    rw [withReturns_cons begins.2.1, size] at cut
    rw [withReturns_append, withReturns_append, plain, ← cut.1, ← cut.2] at scan
    rw [withReturns_append, plain, withReturns_cons begins.2.1]
    have step := Scan.token blank begins read' scan
    rw [Position.after_withReturns_append] at step
    have other : l.kind ≠ .layout .newline := by
      intro mark
      have text := Lexeme.read_isLayout read
      rw [mark] at text
      cases text
    exact ⟨_, step, .cons (.token ⟨rfl, (if_neg other).symm, alike⟩) same⟩
  | @broken done blanks rest c e blank begins read =>
    have plain := withReturns_line (newline_not_mem_blanks blank)
    rw [withReturns_append, plain, withReturns_cons begins.2.1]
    have step := @Scan.broken (Text.withReturns done) _ _ _ _ blank begins
      (Lexeme.misread_withReturns read)
    rw [Position.after_withReturns_append] at step
    exact ⟨_, step, .cons (.broken _) .nil⟩

theorem ofScript_withReturns (cs : List Char) :
    List.Forall₂ WithReturns (ofScript cs) (ofScript (Text.withReturns cs)) := by
  obtain ⟨pieces, scan, same⟩ := (scan_ofScript cs).withReturns
  exact scan.pieces_ofScript ▸ same

end Piece

/-! Tokens -/

inductive ReadWithReturns : (found found' : Except Fault (List Token)) → Prop where
  | ok {ts ts' : List Token} (same : List.Forall₂ Token.WithReturns ts ts') :
      ReadWithReturns (.ok ts) (.ok ts')
  | error (fault : Fault) : ReadWithReturns (.error fault) (.error fault)

theorem ReadWithReturns.map {found found' : Except Fault (List Token)}
    (h : ReadWithReturns found found') {marks marks' : List Token}
    (same : List.Forall₂ Token.WithReturns marks marks') :
    ReadWithReturns (found.map (marks ++ ·)) (found'.map (marks' ++ ·)) := by
  cases h with
  | ok tokens => exact .ok (List.rel_append same tokens)
  | error fault => exact .error fault

theorem Layout.adjust_withReturns {line width : Nat} {blocks still : List Nat} {marks : List Token}
    (h : adjust line width blocks = some (marks, still)) :
    List.Forall₂ Token.WithReturns marks marks := by
  refine List.forall₂_same.mpr fun t found => .refl ?_
  rcases adjust_cases h with ⟨-, rfl, -⟩ | ⟨closed, -, -, -, rfl⟩
  · rw [List.mem_singleton.mp found]
    exact fun mark => by cases mark
  · obtain ⟨w, -, rfl⟩ := List.mem_map.mp found
    exact fun mark => by cases mark

theorem Layout.tokens_withReturns (finish : Position) {pieces pieces' : List Piece}
    (h : List.Forall₂ Piece.WithReturns pieces pieces') (blocks : List Nat) :
    ReadWithReturns (tokens finish blocks pieces) (tokens finish blocks pieces') := by
  induction h generalizing blocks with
  | nil =>
    rw [tokens]
    refine .ok (List.forall₂_same.mpr fun t found => .refl ?_)
    rcases List.mem_append.mp found with found | found
    · obtain ⟨w, -, rfl⟩ := List.mem_map.mp found
      exact fun mark => by cases mark
    · rw [List.mem_singleton.mp found]
      exact fun mark => by cases mark
  | cons piece _ ih =>
    cases piece with
    | content width first =>
      rw [tokens, tokens]
      cases fits : adjust first.line width blocks with
      | none => exact .error _
      | some next => exact (ih next.2).map (adjust_withReturns fits)
    | token same =>
      rw [tokens, tokens]
      exact (ih blocks).map (.cons same .nil)
    | broken fault => exact .error fault

/-- The script with a carriage return before each of its line feeds. -/
def crlf (source : String) : String := String.ofList (withReturns source.toList)

@[simp] theorem toList_crlf (source : String) : (crlf source).toList = withReturns source.toList :=
  String.toList_ofList

theorem tokenize_crlf (source : String) :
    ReadWithReturns (tokenize source) (tokenize (crlf source)) := by
  rw [tokenize, tokenize, toList_crlf, Position.after_withReturns]
  exact Layout.tokens_withReturns _ (Piece.ofScript_withReturns source.toList) []

end Miaou
