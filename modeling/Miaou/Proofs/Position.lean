import Miaou.Position
import Miaou.Proofs.Text.Runs

/-!
Positions and offsets are two names of one place: the position reached behind some characters of
a text has, in any text that begins with them, the number of these characters as its offset.
-/

namespace Miaou.Position

theorem line_le_after (p : Position) (cs : List Char) : p.line ≤ (p.after cs).line := by
  induction cs generalizing p with
  | nil => exact Nat.le_refl _
  | cons c cs ih =>
    rw [after_cons]
    refine Nat.le_trans ?_ (ih _)
    unfold next
    split <;> simp

theorem after_line (p : Position) {cs : List Char} (h : '\n' ∉ cs) :
    p.after cs = ⟨p.line, p.column + cs.length⟩ := by
  induction cs generalizing p with
  | nil => rfl
  | cons c cs ih =>
    rw [List.mem_cons, not_or] at h
    rw [after_cons, next, if_neg (Ne.symm h.1), ih _ h.2]
    simp only [List.length_cons, Position.mk.injEq, true_and]
    omega

theorem countTo_row (columns : Nat) {row : List Char} (h : '\n' ∉ row) (cs : List Char) :
    countTo columns 0 (row ++ cs) =
      min columns (row.length + (cs.takeWhile (· ≠ '\n')).length) := by
  have inside : ∀ c ∈ row, decide (c ≠ '\n') = true := by
    intro c hc
    exact decide_eq_true (fun e => h (e ▸ hc))
  rw [countTo, List.takeWhile_append_of_pos inside, List.length_append]

theorem countTo_newline (columns lines : Nat) {row : List Char} (h : '\n' ∉ row)
    (cs : List Char) :
    countTo columns (lines + 1) (row ++ '\n' :: cs) =
      row.length + 1 + countTo columns lines cs := by
  induction row with
  | nil => simp [countTo, Nat.add_comm]
  | cons c row ih =>
    rw [List.mem_cons, not_or] at h
    rw [List.cons_append, countTo, if_neg (Ne.symm h.1), ih h.2, List.length_cons]
    omega

/-- The count behind `done`, when the line reached before `done` already holds `row`. -/
theorem countTo_after (line : Nat) (row : List Char) (h : '\n' ∉ row) (done rest : List Char) :
    countTo ((after ⟨line, row.length + 1⟩ done).column - 1)
      ((after ⟨line, row.length + 1⟩ done).line - line) (row ++ (done ++ rest)) =
      row.length + done.length := by
  induction done generalizing line row with
  | nil =>
    simp [countTo_row _ h]
  | cons c done ih =>
    rw [after_cons, next]
    by_cases hc : c = '\n'
    · subst hc
      rw [if_pos rfl]
      have reached := line_le_after ⟨line + 1, 1⟩ done
      obtain ⟨k, hk⟩ := Nat.exists_eq_add_of_le reached
      have step := ih (line + 1) [] (by simp)
      simp only [List.length_nil, Nat.zero_add, List.nil_append] at step
      rw [hk] at step ⊢
      have first : line + 1 + k - (line + 1) = k := by omega
      have second : line + 1 + k - line = k + 1 := by omega
      rw [first] at step
      rw [second, List.cons_append, countTo_newline _ _ h, step, List.length_cons]
      omega
    · rw [if_neg hc]
      have step := ih line (row ++ [c]) (by simp [h, Ne.symm hc])
      simp only [List.length_append, List.length_singleton, List.append_assoc,
        List.singleton_append] at step
      rw [List.cons_append, step, List.length_cons]
      omega

theorem offset_after (done rest : List Char) :
    (start.after done).offset (done ++ rest) = done.length := by
  have count := countTo_after 1 [] (by simp) done rest
  simpa [start, offset] using count

theorem cut_offset {cs done rest : List Char} {p : Position} (same : cs = done ++ rest)
    (here : p = start.after done) :
    p.offset cs ≤ cs.length ∧ cs.take (p.offset cs) = done ∧ cs.drop (p.offset cs) = rest := by
  subst same here
  rw [offset_after, List.length_append]
  exact ⟨Nat.le_add_right _ _, List.take_left, List.drop_left⟩

theorem after_injective {done done' rest rest' : List Char}
    (same : done ++ rest = done' ++ rest') (h : start.after done = start.after done') :
    done = done' := by
  have lengths : done.length = done'.length := by
    rw [← offset_after done rest, ← offset_after done' rest', same, h]
  exact (List.append_inj same lengths).1

theorem after_newline (done : List Char) :
    start.after (done ++ ['\n']) = ⟨(start.after done).line + 1, 1⟩ := by
  simp [next]

end Miaou.Position
