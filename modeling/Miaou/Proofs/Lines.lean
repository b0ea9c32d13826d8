import Miaou.Lines
import Miaou.Proofs.Position

/-!
The lines of a text and the places on them. A text is cut line by line at its line feeds, and a
place reached in the text stands on one of these lines, at most right behind its last character.
-/

namespace Miaou

namespace Lines

theorem cut_cons (c : Char) (cs : List Char) :
    cut (c :: cs) = if c = '\n' then [] :: cut cs else (cut cs).modifyHead (c :: ·) := by
  rw [cut, List.splitOn_cons_eq_if_modifyHead]
  simp only [beq_iff_eq, cut]

theorem cut_line {line : List Char} (h : '\n' ∉ line) : cut line = [line] := by
  induction line with
  | nil => rfl
  | cons c cs ih =>
    rw [List.mem_cons, not_or] at h
    rw [cut_cons, if_neg (Ne.symm h.1), ih h.2]
    rfl

theorem cut_append (cs ds : List Char) : cut (cs ++ '\n' :: ds) = cut cs ++ cut ds :=
  List.splitOnP_append_cons cs ds (beq_self_eq_true '\n')

theorem cut_newline {line : List Char} (h : '\n' ∉ line) (rest : List Char) :
    cut (line ++ '\n' :: rest) = line :: cut rest := by
  rw [cut_append, cut_line h]
  rfl

@[simp] theorem head?_cut (cs : List Char) : (cut cs).head? = some (cs.takeWhile (· ≠ '\n')) := by
  induction cs with
  | nil => rfl
  | cons c cs ih =>
    rw [cut_cons]
    by_cases feed : c = '\n'
    · simp [feed]
    · rw [if_neg feed, List.head?_modifyHead, ih, List.takeWhile_cons_of_pos (by simpa using feed)]
      rfl

theorem mem_cut (cs : List Char) : cs.takeWhile (· ≠ '\n') ∈ cut cs :=
  List.mem_of_head? (head?_cut cs)

/-- The place behind `done` stands on a line, of which the part before its column has been read and
the part from its column on is ahead, when the line before `done` already holds `row`. -/
theorem cut_after (line : Nat) (row : List Char) (h : '\n' ∉ row) (done rest : List Char) :
    ∃ begun, (cut (row ++ (done ++ rest)))[
        (Position.after ⟨line, row.length + 1⟩ done).line - line]? =
          some (begun ++ rest.takeWhile (· ≠ '\n')) ∧
      (Position.after ⟨line, row.length + 1⟩ done).column = begun.length + 1 := by
  -- A character moves from the text ahead to the end of `row`; a line feed begins a new `row`.
  induction done generalizing line row with
  | nil =>
    have inside : ∀ c ∈ row, decide (c ≠ '\n') = true :=
      fun c hc => decide_eq_true fun same => h (same ▸ hc)
    refine ⟨row, ?_, rfl⟩
    rw [Position.after_nil, Nat.sub_self, ← List.head?_eq_getElem?, head?_cut, List.nil_append,
      List.takeWhile_append_of_pos inside]
  | cons c done ih =>
    rw [Position.after_cons, Position.next]
    by_cases feed : c = '\n'
    · subst feed
      obtain ⟨begun, found, column⟩ := ih (line + 1) [] (by simp)
      have reached := Position.line_le_after ⟨line + 1, 1⟩ done
      refine ⟨begun, ?_, column⟩
      rw [if_pos rfl, List.cons_append, cut_newline h]
      obtain ⟨k, hk⟩ := Nat.exists_eq_add_of_le reached
      rw [List.length_nil, hk] at found
      rw [hk]
      have first : line + 1 + k - (line + 1) = k := by omega
      have second : line + 1 + k - line = k + 1 := by omega
      rw [first] at found
      rw [second, List.getElem?_cons_succ]
      exact found
    · rw [if_neg feed]
      have step := ih line (row ++ [c]) (by simp [h, Ne.symm feed])
      simpa using step

theorem get?_ofText {source : String} {n : Nat} {row : List Char} (first : 1 ≤ n)
    (found : (cut source.toList)[n - 1]? = some row) :
    get? (ofText source) n = some (String.ofList (dropReturn row)) := by
  obtain ⟨i, rfl⟩ := Nat.exists_eq_add_of_le' first
  rw [Nat.add_sub_cancel] at found
  rw [get?, ofText, List.getElem?_map, found]
  rfl

theorem newline_not_mem_cut {cs row : List Char} (h : row ∈ cut cs) : '\n' ∉ row := by
  induction cs generalizing row with
  | nil => simp [List.mem_singleton.mp h]
  | cons c cs ih =>
    rw [cut_cons] at h
    split at h
    · rcases List.mem_cons.mp h with rfl | later
      · exact List.not_mem_nil
      · exact ih later
    · rename_i other
      obtain ⟨first, rows, same⟩ := List.exists_cons_of_ne_nil (cut_ne_nil cs)
      rw [same, List.modifyHead_cons] at h
      rcases List.mem_cons.mp h with rfl | later
      · rw [List.mem_cons, not_or]
        exact ⟨Ne.symm other, ih (same ▸ List.mem_cons_self)⟩
      · exact ih (same ▸ List.mem_cons_of_mem _ later)

theorem newline_not_mem_get? {source text : String} {n : Nat}
    (h : get? (ofText source) n = some text) : '\n' ∉ text.toList := by
  cases n with
  | zero => cases h
  | succ i =>
    have found : (ofText source)[i]? = some text := h
    obtain ⟨row, member, rfl⟩ := List.mem_map.mp (List.mem_of_getElem? found)
    rw [String.toList_ofList, dropReturn]
    split
    · exact fun feed => newline_not_mem_cut member (List.dropLast_subset row feed)
    · exact newline_not_mem_cut member

end Lines

namespace Position

/-- The place is reached behind some of the characters of the text. -/
def Within (p : Position) (cs : List Char) : Prop :=
  ∃ done rest, cs = done ++ rest ∧ p = start.after done

theorem Within.line {p : Position} {cs : List Char} (h : p.Within cs) :
    1 ≤ p.line ∧ ∃ row, (Lines.cut cs)[p.line - 1]? = some row ∧ p.column - 1 ≤ row.length := by
  obtain ⟨done, rest, rfl, rfl⟩ := h
  obtain ⟨begun, found, column⟩ := Lines.cut_after 1 [] (by simp) done rest
  refine ⟨line_le_after start done, _, found, ?_⟩
  change (start.after done).column = begun.length + 1 at column
  rw [column, List.length_append]
  exact Nat.le_add_right _ _

end Position

end Miaou
