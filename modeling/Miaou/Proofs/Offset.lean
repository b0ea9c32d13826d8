import Miaou.Proofs.Lines

/-!
Offsets over the lines of a text. A place on a line is behind all lines before it, each with its
line feed, and behind the columns before it; a place beyond the end of its line counts as that end,
and a place on no line as the end of the text. So offsets stay within the text, keep the reading
order of places, and undo the moving over the characters of the text.
-/

namespace Miaou

namespace Lines

/-- The number of characters in lines, each with the line feed that ends it. -/
def extent : List (List Char) → Nat
  | [] => 0
  | row :: rows => row.length + 1 + extent rows

@[simp] theorem extent_append (rows rows' : List (List Char)) :
    extent (rows ++ rows') = extent rows + extent rows' := by
  induction rows with
  | nil => simp [extent]
  | cons row rows ih => simp [extent, ih, Nat.add_assoc]

@[simp] theorem extent_cut (cs : List Char) : extent (cut cs) = cs.length + 1 := by
  induction cs with
  | nil => rfl
  | cons c cs ih =>
    rw [cut_cons]
    split
    · simp [extent, ih, Nat.add_comm]
    · obtain ⟨row, rows, same⟩ := List.exists_cons_of_ne_nil (cut_ne_nil cs)
      rw [same, extent] at ih
      simp only [same, List.modifyHead_cons, extent, List.length_cons]
      omega

section Rows

variable {cs row : List Char} {i : Nat}

theorem extent_take_succ (found : (cut cs)[i]? = some row) :
    extent ((cut cs).take (i + 1)) = extent ((cut cs).take i) + (row.length + 1) := by
  simp [List.take_add_one, found, extent]

theorem extent_take_le (j : Nat) (rows : List (List Char)) :
    extent (rows.take j) ≤ extent rows := by
  have whole := extent_append (rows.take j) (rows.drop j)
  rw [List.take_append_drop] at whole
  omega

theorem extent_row_le (found : (cut cs)[i]? = some row) :
    extent ((cut cs).take i) + row.length ≤ cs.length := by
  have whole := extent_take_le (i + 1) (cut cs)
  rw [extent_take_succ found, extent_cut] at whole
  omega

theorem extent_row_lt {j : Nat} (later : i < j) (found : (cut cs)[i]? = some row) :
    extent ((cut cs).take i) + row.length < extent ((cut cs).take j) := by
  have before := extent_take_le (i + 1) ((cut cs).take j)
  rw [List.take_take, Nat.min_eq_left later, extent_take_succ found] at before
  omega

end Rows

end Lines

namespace Position

open Lines

theorem countTo_eq (columns lines : Nat) (cs : List Char) :
    countTo columns lines cs =
      match (cut cs)[lines]? with
      | some row => extent ((cut cs).take lines) + min columns row.length
      | none => cs.length := by
  fun_induction countTo columns lines cs with
  | case1 cs =>
    rw [← List.head?_eq_getElem?, head?_cut]
    simp [extent]
  | case2 => rfl
  | case3 lines cs ih =>
    rw [ih, cut_cons, if_pos rfl, List.getElem?_cons_succ]
    cases (cut cs)[lines]? <;> simp [extent]
    omega
  | case4 lines c cs other ih =>
    obtain ⟨row, rows, same⟩ := List.exists_cons_of_ne_nil (cut_ne_nil cs)
    rw [ih, cut_cons, if_neg other, same, List.modifyHead_cons, List.getElem?_cons_succ,
      List.getElem?_cons_succ]
    cases rows[lines]? <;> simp [extent]
    omega

theorem countTo_le_row {lines : Nat} {cs row : List Char} (found : (cut cs)[lines]? = some row)
    (columns : Nat) :
    countTo columns lines cs ≤ extent ((cut cs).take lines) + row.length := by
  rw [countTo_eq, found]
  exact Nat.add_le_add_left (Nat.min_le_right columns row.length) _

theorem countTo_le (columns lines : Nat) (cs : List Char) :
    countTo columns lines cs ≤ cs.length := by
  cases found : (cut cs)[lines]? with
  | some row => exact Nat.le_trans (countTo_le_row found columns) (extent_row_le found)
  | none =>
    rw [countTo_eq, found]

theorem countTo_columns {columns columns' : Nat} (h : columns ≤ columns') (lines : Nat)
    (cs : List Char) : countTo columns lines cs ≤ countTo columns' lines cs := by
  rw [countTo_eq, countTo_eq]
  cases (cut cs)[lines]? with
  | some row =>
    have least : min columns row.length ≤ min columns' row.length := by omega
    exact Nat.add_le_add_left least _
  | none => exact Nat.le_refl _

theorem countTo_lines {lines lines' : Nat} (h : lines < lines') (columns columns' : Nat)
    (cs : List Char) : countTo columns lines cs ≤ countTo columns' lines' cs := by
  cases found : (cut cs)[lines]? with
  | none =>
    -- The lines end before the first place, so both places count as the end of the text.
    have none : (cut cs)[lines']? = none := by
      rw [List.getElem?_eq_none_iff] at found ⊢
      omega
    rw [countTo_eq, countTo_eq, found, none]
  | some row =>
    refine Nat.le_trans (countTo_le_row found columns) ?_
    rw [countTo_eq columns']
    cases (cut cs)[lines']? with
    | some row' => exact Nat.le_trans (extent_row_lt h found).le (Nat.le_add_right _ _)
    | none => exact extent_row_le found

theorem offset_mono {p q : Position} (first : 1 ≤ p.line) (order : p.atMost q = true)
    (cs : List Char) : p.offset cs ≤ q.offset cs := by
  simp only [atMost, Bool.or_eq_true, Bool.and_eq_true, decide_eq_true_eq, beq_iff_eq] at order
  rw [offset, offset]
  rcases order with before | ⟨same, columns⟩
  · exact countTo_lines (by omega) _ _ cs
  · rw [same]
    exact countTo_columns (by omega) _ cs

/-- Positions and offsets are inverse: moving over some characters of a text leads to a place with
their number as its offset, and to a place of the text leads moving over its offset. Every place has
an offset in the text, and the offsets keep the reading order of places. -/
theorem offset_inverse (cs : List Char) :
    (∀ o ≤ cs.length, (start.after (cs.take o)).offset cs = o) ∧
    (∀ p : Position, p.Within cs → start.after (cs.take (p.offset cs)) = p) ∧
    (∀ p : Position, 1 ≤ p.line → 1 ≤ p.column → p.offset cs ≤ cs.length) ∧
    ∀ p q : Position, 1 ≤ p.line → 1 ≤ p.column → 1 ≤ q.line → 1 ≤ q.column →
      p.atMost q = true → p.offset cs ≤ q.offset cs := by
  refine ⟨fun o inside => ?_, fun p ⟨done, rest, same, here⟩ => ?_, fun p _ _ => ?_,
    fun p q first _ _ _ order => ?_⟩
  · have moved := offset_after (cs.take o) (cs.drop o)
    rwa [List.take_append_drop, List.length_take_of_le inside] at moved
  · rw [(cut_offset same here).2.1, here]
  · exact countTo_le _ _ cs
  · exact offset_mono first order cs

theorem offset_inverse_empty_line :
    (2 ≤ 6 ∧ start.after ("é\n\nxyz".toList.take 2) = ⟨2, 1⟩ ∧
      offset ⟨2, 1⟩ "é\n\nxyz".toList = 2) ∧
    (Within ⟨3, 2⟩ "é\n\nxyz".toList ∧
      start.after ("é\n\nxyz".toList.take (offset ⟨3, 2⟩ "é\n\nxyz".toList)) = ⟨3, 2⟩) ∧
    offset ⟨9, 4⟩ "é\n\nxyz".toList ≤ 6 ∧
    (atMost ⟨1, 40⟩ ⟨2, 7⟩ = true ∧
      offset ⟨1, 40⟩ "é\n\nxyz".toList ≤ offset ⟨2, 7⟩ "é\n\nxyz".toList) := by
  obtain ⟨moved, reached, bounded, ordered⟩ := offset_inverse "é\n\nxyz".toList
  have within : Within ⟨3, 2⟩ "é\n\nxyz".toList := ⟨"é\n\nx".toList, "yz".toList, rfl, by decide⟩
  exact ⟨⟨by decide, by decide, moved 2 (by decide)⟩, ⟨within, reached _ within⟩,
    bounded _ (by decide) (by decide), by decide,
    ordered _ _ (by decide) (by decide) (by decide) (by decide) (by decide)⟩

end Position

end Miaou
