import Miaou.Diagnostic.Context
import Miaou.Lines

/-!
The lines shown with a fault. Whatever lines are shown around it, the line of the fault is among
them once and is the only one that is marked.
-/

namespace Miaou

namespace Text

theorem trimRight_concat {c : Char} (h : isBlank c = true) (cs : List Char) :
    trimRight (cs ++ [c]) = trimRight cs := by
  simp [trimRight, h]

end Text

namespace Lines

@[simp] theorem trimRight_dropReturn (line : List Char) :
    Text.trimRight (dropReturn line) = Text.trimRight line := by
  rw [dropReturn]
  split
  · rename_i last
    obtain ⟨shown, rfl⟩ := List.getLast?_eq_some_iff.mp last
    rw [List.dropLast_concat, Text.trimRight_concat (by decide)]
  · rfl

end Lines

theorem filter_zipIdx {α : Type} (xs : List α) (first i : Nat) :
    ((xs.zipIdx first).filter fun (_, n) => n = first + i) =
      xs[i]?.toList.map fun x => (x, first + i) := by
  induction xs generalizing first i with
  | nil => rfl
  | cons x xs ih =>
    rw [List.zipIdx_cons]
    cases i with
    | zero =>
      have none : ((xs.zipIdx (first + 1)).filter fun (_, n) => n = first) = [] := by
        rw [List.filter_eq_nil_iff]
        intro entry found
        have later := List.le_snd_of_mem_zipIdx found
        simpa using Nat.ne_of_gt later
      rw [List.filter_cons_of_pos (by simp), Nat.add_zero, none]
      rfl
    | succ i =>
      have step := ih (first + 1) i
      rw [Nat.add_right_comm, Nat.add_assoc] at step
      rw [List.filter_cons_of_neg (by simp), step]
      rfl

theorem contextAround_isFault {lines : List String} {line : Nat} {text : String}
    (h : Lines.get? lines line = some text) (radius : Nat) :
    (contextAround lines line radius).filter (·.isFault) =
      [⟨line, String.ofList (Text.trimRight text.toList), true⟩] := by
  cases line with
  | zero => cases h
  | succ i =>
    have found : lines[i]? = some text := h
    have near : ∀ entry : String × Nat,
        (decide (entry.2 = i + 1) &&
          (decide (i + 1 ≤ entry.2 + radius) && decide (entry.2 ≤ i + 1 + radius))) =
            decide (entry.2 = 1 + i) := by
      intro entry
      rw [Bool.eq_iff_iff]
      simp only [Bool.and_eq_true, decide_eq_true_eq]
      omega
    rw [contextAround, if_neg (Nat.succ_ne_zero i), List.filter_map, List.filter_filter]
    simp only [Function.comp_def, near]
    rw [filter_zipIdx, found]
    simp [Nat.add_comm 1]

end Miaou
