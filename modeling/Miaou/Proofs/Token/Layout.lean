import Miaou.Proofs.Text.Runs
import Miaou.Token.Layout

/-!
What a line of a given indentation does to the open blocks. The open blocks are strictly narrower
from the innermost one outwards, and the layout tokens of a line are one opening mark or as many
closing marks as there are wider blocks.
-/

namespace Miaou.Layout

open Text

/-- Open blocks, from the innermost: each is indented further than the next and all further than
the margin. -/
def Nested (blocks : List Nat) : Prop := (blocks ++ [0]).Pairwise (· > ·)

theorem nested_nil : Nested [] := List.pairwise_singleton _ _

theorem nested_cons {width : Nat} {blocks : List Nat} (h : Nested blocks)
    (wider : blocks.headD 0 < width) : Nested (width :: blocks) := by
  cases blocks with
  | nil => simpa [Nested] using wider
  | cons b bs =>
    simp only [Nested, List.cons_append, List.pairwise_cons] at h ⊢
    refine ⟨?_, h⟩
    intro w hw
    rcases List.mem_cons.mp hw with rfl | hw
    · exact wider
    · exact Nat.lt_trans (h.1 w hw) wider

theorem nested_of_append {closed still : List Nat} (h : Nested (closed ++ still)) :
    Nested still := by
  rw [Nested, List.append_assoc, List.pairwise_append] at h
  exact h.2.1

/-- A line opens one block, or closes the blocks that are wider than it and then stands in a
block of its own width. -/
theorem adjust_cases {line width : Nat} {blocks still : List Nat} {marks : List Token}
    (h : adjust line width blocks = some (marks, still)) :
    (blocks.headD 0 < width ∧ marks = [.indent width line] ∧ still = width :: blocks) ∨
      ∃ closed, blocks = closed ++ still ∧ (∀ w ∈ closed, width < w) ∧ still.headD 0 = width ∧
        marks = closed.map fun _ => .dedent width ⟨line, 1⟩ := by
  by_cases wider : blocks.headD 0 < width
  · rw [adjust, if_pos wider] at h
    cases h
    exact .inl ⟨wider, rfl, rfl⟩
  rw [adjust, if_neg wider] at h
  by_cases met : (blocks.dropWhile (width < ·)).headD 0 = width
  · simp only [if_pos met] at h
    cases h
    refine .inr ⟨blocks.takeWhile (width < ·), ?_, ?_, met, rfl⟩
    · rw [List.takeWhile_append_dropWhile]
    · intro w hw
      simpa using List.mem_takeWhile_imp hw
  · simp only [if_neg met] at h
    nomatch h

theorem nested_adjust {line width : Nat} {blocks still : List Nat} {marks : List Token}
    (h : adjust line width blocks = some (marks, still)) (nested : Nested blocks) :
    Nested still := by
  rcases adjust_cases h with ⟨wider, -, rfl⟩ | ⟨closed, rfl, -, -, -⟩
  · exact nested_cons nested wider
  · exact nested_of_append nested

theorem headD_dropWhile (width : Nat) {blocks : List Nat} (nested : Nested blocks) :
    (blocks.dropWhile (width < ·)).headD 0 = width ↔ width ∈ blocks ++ [0] := by
  induction blocks with
  | nil => simp [eq_comm]
  | cons b bs ih =>
    have inner := ih (@nested_of_append [b] bs nested)
    by_cases wider : width < b
    · rw [List.dropWhile_cons_of_pos (by simpa using wider), inner, List.cons_append,
        List.mem_cons, or_iff_right (Nat.ne_of_lt wider)]
    · rw [List.dropWhile_cons_of_neg (by simpa using wider), List.headD_cons, List.cons_append,
        List.mem_cons, eq_comm, iff_self_or]
      intro open'
      simp only [Nested, List.cons_append, List.pairwise_cons] at nested
      exact absurd (nested.1 width open') wider

theorem adjust_eq_none {line width : Nat} {blocks : List Nat} (nested : Nested blocks) :
    adjust line width blocks = none ↔
      width < blocks.headD 0 ∧ width ∉ blocks ++ [0] := by
  by_cases wider : blocks.headD 0 < width
  · rw [adjust, if_pos wider, iff_false_left (Option.some_ne_none _)]
    exact fun narrow => absurd narrow.1 (Nat.lt_asymm wider)
  rw [adjust, if_neg wider, ← headD_dropWhile width nested]
  by_cases met : (blocks.dropWhile (width < ·)).headD 0 = width
  · simp only [if_pos met]
    rw [iff_false_left (Option.some_ne_none _)]
    exact fun narrow => narrow.2 met
  · simp only [if_neg met]
    rw [true_iff]
    refine ⟨Nat.lt_of_le_of_ne (Nat.not_lt.mp wider) ?_, met⟩
    rintro rfl
    cases blocks with
    | nil => exact met rfl
    | cons b bs => exact met (by simp)

theorem map_ok {α β ε : Type} {x : Except ε α} {f : α → β} {b : β} (h : x.map f = .ok b) :
    ∃ a, x = .ok a ∧ f a = b := by
  cases x with
  | error e => cases h
  | ok a => exact ⟨a, rfl, Except.ok.inj h⟩

theorem tokens_token {finish : Position} {blocks : List Nat} {t : Token} {pieces : List Piece}
    {ts : List Token} (h : tokens finish blocks (.token t :: pieces) = .ok ts) :
    ∃ us, tokens finish blocks pieces = .ok us ∧ ts = t :: us := by
  rw [tokens] at h
  obtain ⟨us, rest, rfl⟩ := map_ok h
  exact ⟨us, rest, rfl⟩

theorem tokens_content {finish : Position} {blocks : List Nat} {width : Nat} {first : Position}
    {pieces : List Piece} {ts : List Token}
    (h : tokens finish blocks (.content width first :: pieces) = .ok ts) :
    ∃ marks still us, adjust first.line width blocks = some (marks, still) ∧
      tokens finish still pieces = .ok us ∧ ts = marks ++ us := by
  rw [tokens] at h
  split at h
  · cases h
  · rename_i marks still met
    obtain ⟨us, rest, rfl⟩ := map_ok h
    exact ⟨marks, still, us, met, rest, rfl⟩

theorem mem_adjust {line width : Nat} {blocks still : List Nat} {marks : List Token}
    (h : adjust line width blocks = some (marks, still)) :
    ∀ t ∈ marks, t.kind.isLayout = true ∧ t.position = ⟨line, 1⟩ := by
  rcases adjust_cases h with ⟨-, rfl, -⟩ | ⟨closed, -, -, -, rfl⟩
  · intro t ht
    rw [List.mem_singleton.mp ht]
    exact ⟨rfl, rfl⟩
  · intro t ht
    obtain ⟨w, -, rfl⟩ := List.mem_map.mp ht
    exact ⟨rfl, rfl⟩

theorem mem_tokens {finish : Position} {blocks : List Nat} {pieces : List Piece} {ts : List Token}
    (h : tokens finish blocks pieces = .ok ts) :
    ∀ t ∈ ts, (t.kind.isLayout = true ∧ (t.position = finish ∨
        ∃ width first, .content width first ∈ pieces ∧ t.position = ⟨first.line, 1⟩)) ∨
      .token t ∈ pieces := by
  induction pieces generalizing blocks ts with
  | nil =>
    cases h
    intro t ht
    rcases List.mem_append.mp ht with ht | ht
    · obtain ⟨w, -, rfl⟩ := List.mem_map.mp ht
      exact .inl ⟨rfl, .inl rfl⟩
    · rw [List.mem_singleton.mp ht]
      exact .inl ⟨rfl, .inl rfl⟩
  | cons piece pieces ih =>
    have deeper {still : List Nat} {us : List Token} (read : tokens finish still pieces = .ok us)
        {t : Token} (ht : t ∈ us) :
        (t.kind.isLayout = true ∧ (t.position = finish ∨ ∃ width first,
          .content width first ∈ piece :: pieces ∧ t.position = ⟨first.line, 1⟩)) ∨
        .token t ∈ piece :: pieces := by
      rcases ih read t ht with ⟨mark, ending | ⟨width, first, found, place⟩⟩ | found
      · exact .inl ⟨mark, .inl ending⟩
      · exact .inl ⟨mark, .inr ⟨width, first, List.mem_cons_of_mem _ found, place⟩⟩
      · exact .inr (List.mem_cons_of_mem _ found)
    intro t ht
    cases piece with
    | broken fault => cases h
    | token u =>
      obtain ⟨us, read, rfl⟩ := tokens_token h
      rcases List.mem_cons.mp ht with rfl | ht
      · exact .inr List.mem_cons_self
      · exact deeper read ht
    | content width first =>
      obtain ⟨marks, still, us, met, read, rfl⟩ := tokens_content h
      rcases List.mem_append.mp ht with ht | ht
      · obtain ⟨mark, place⟩ := mem_adjust met t ht
        exact .inl ⟨mark, .inr ⟨width, first, List.mem_cons_self, place⟩⟩
      · exact deeper read ht

theorem tokens_sound {finish : Position} {blocks : List Nat} {pieces : List Piece}
    {ts : List Token} (h : tokens finish blocks pieces = .ok ts) :
    ∀ fault, .broken fault ∉ pieces := by
  induction pieces generalizing blocks ts with
  | nil => exact fun fault found => nomatch found
  | cons piece pieces ih =>
    intro fault found
    cases piece with
    | broken other => cases h
    | token t =>
      obtain ⟨us, read, -⟩ := tokens_token h
      exact ih read fault (by simpa using found)
    | content width first =>
      obtain ⟨marks, still, us, -, read, -⟩ := tokens_content h
      exact ih read fault (by simpa using found)

/-- The tokens of the first pieces of a script, before its open blocks are closed, and these
blocks. -/
def lay : List Nat → List Piece → Except Fault (List Token × List Nat)
  | blocks, [] => .ok ([], blocks)
  | blocks, .token t :: pieces => (lay blocks pieces).map fun (ts, still) => (t :: ts, still)
  | _, .broken fault :: _ => .error fault
  | blocks, .content width first :: pieces =>
    match adjust first.line width blocks with
    | none => .error ⟨.badIndentation, first, ""⟩
    | some (marks, still) => (lay still pieces).map fun (ts, open') => (marks ++ ts, open')

/-- Reading goes piece by piece: the first pieces alone decide their tokens and the blocks that
are open behind them. -/
theorem tokens_append (finish : Position) (blocks : List Nat) (before more : List Piece) :
    tokens finish blocks (before ++ more) =
      (lay blocks before).bind fun (ts, still) =>
        (tokens finish still more).map (ts ++ ·) := by
  induction before generalizing blocks with
  | nil =>
    change tokens finish blocks more = (tokens finish blocks more).map ([] ++ ·)
    cases tokens finish blocks more <;> rfl
  | cons piece before ih =>
    cases piece with
    | broken fault => rfl
    | token t =>
      rw [List.cons_append, tokens, ih, lay]
      cases lay blocks before with
      | error e => rfl
      | ok found =>
        simp only [Except.bind, Except.map]
        cases tokens finish found.2 more <;> rfl
    | content width first =>
      rw [List.cons_append, tokens, lay]
      cases adjust first.line width blocks with
      | none => rfl
      | some adjusted =>
        obtain ⟨marks, still⟩ := adjusted
        simp only [ih]
        cases lay still before with
        | error e => rfl
        | ok found =>
          simp only [Except.bind, Except.map]
          cases tokens finish found.2 more with
          | error e => rfl
          | ok ts => simp

/-- Layout fails at a piece that could not be read or at a line that fits no block. -/
theorem tokens_error {finish : Position} {blocks : List Nat} {pieces : List Piece} {fault : Fault}
    (h : tokens finish blocks pieces = .error fault) :
    .broken fault ∈ pieces ∨
      ∃ width first, .content width first ∈ pieces ∧ fault = ⟨.badIndentation, first, ""⟩ := by
  induction pieces generalizing blocks with
  | nil => cases h
  | cons piece pieces ih =>
    have deeper {still : List Nat} (h : tokens finish still pieces = .error fault) :
        .broken fault ∈ piece :: pieces ∨ ∃ width first,
          .content width first ∈ piece :: pieces ∧ fault = ⟨.badIndentation, first, ""⟩ := by
      rcases ih h with found | ⟨width, first, found, same⟩
      · exact .inl (List.mem_cons_of_mem _ found)
      · exact .inr ⟨width, first, List.mem_cons_of_mem _ found, same⟩
    cases piece with
    | broken other =>
      cases h
      exact .inl List.mem_cons_self
    | token t =>
      rw [tokens] at h
      cases read : tokens finish blocks pieces with
      | error e =>
        rw [read] at h
        cases h
        exact deeper read
      | ok ts =>
        rw [read] at h
        cases h
    | content width first =>
      rw [tokens] at h
      cases met : adjust first.line width blocks with
      | none =>
        rw [met] at h
        cases h
        exact .inr ⟨width, first, List.mem_cons_self, rfl⟩
      | some adjusted =>
        rw [met] at h
        cases read : tokens finish adjusted.2 pieces with
        | error e =>
          simp only [read] at h
          cases h
          exact deeper read
        | ok ts =>
          simp only [read] at h
          cases h

end Miaou.Layout
