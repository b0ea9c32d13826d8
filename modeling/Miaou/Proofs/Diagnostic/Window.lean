import Mathlib.Data.List.Sort
import Miaou.Proofs.Diagnostic.Context
import Miaou.Proofs.Number.Word
import Miaou.Proofs.Text.Runs

/-!
The window of lines around a fault, counted as a machine counts: in words, which end at a largest
number `top`. The machine stops where a difference falls below zero and where a line is asked for
that is not there. `window?` finds the first and the last number of the window with sums and
differences that stay at the ends of the words, and then asks for each line between them. It never
stops, and what it finds are just the lines within the radius, in their order.
-/

namespace Miaou

/-- The row of the line of a number, if the machine does not stop at the number. -/
def ContextLine.ofNumber? (lines : List String) (fault number : Nat) : Option ContextLine := do
  let index ← Word.sub? number 1
  let text ← lines[index]?
  some ⟨number, String.ofList (Text.trimRight text.toList), number = fault⟩

def window? (top : Nat) (lines : List String) (line radius : Nat) : Option (List ContextLine) :=
  if lines = [] ∨ line = 0 then some []
  else
    let first := max (Word.saturatingSub line radius) 1
    let last := min (Word.saturatingAdd top line radius) lines.length
    (List.range' first (last + 1 - first)).mapM (ContextLine.ofNumber? lines line)

/-- The rows show the lines at most `radius` away from a line, each once and in their order. -/
structure Surrounds (lines : List String) (line radius : Nat) (rows : List ContextLine) :
    Prop where
  consecutive : ∃ first, rows.map (·.number) = List.range' first rows.length
  near : ∀ n, n ∈ rows.map (·.number) ↔
    1 ≤ n ∧ n ≤ lines.length ∧ ((n : Int) - line).natAbs ≤ radius
  /-- A row has the text of its line up to the last character that is no blank. -/
  text : ∀ row ∈ rows, ∃ text, Lines.get? lines row.number = some text ∧
    ∃ blanks, text.toList = row.text.toList ++ blanks ∧
      (∀ c ∈ blanks, Text.isBlank c = true) ∧
      ∀ c ∈ row.text.toList.getLast?, Text.isBlank c = false
  marked : ∀ row ∈ rows, row.isFault = true ↔ row.number = line

namespace Text

theorem trimRight_split (cs : List Char) :
    ∃ blanks, cs = trimRight cs ++ blanks ∧ (∀ c ∈ blanks, isBlank c = true) ∧
      ∀ c ∈ (trimRight cs).getLast?, isBlank c = false := by
  refine ⟨(cs.reverse.takeWhile isBlank).reverse, ?_, fun c found => ?_, fun c found => ?_⟩
  · rw [trimRight, ← List.reverse_append, List.takeWhile_append_dropWhile, List.reverse_reverse]
  · exact List.mem_takeWhile_imp (List.mem_reverse.mp found)
  · rw [trimRight, List.getLast?_reverse] at found
    exact stops_dropWhile isBlank cs.reverse c found

end Text

section Rows

variable {lines : List String} {line radius : Nat}

theorem ContextLine.ofNumber?_eq {n : Nat} {text : String} (h : Lines.get? lines n = some text) :
    ofNumber? lines line n =
      some ⟨n, String.ofList (Text.trimRight text.toList), n = line⟩ := by
  cases n with
  | zero => cases h
  | succ i =>
    have found : lines[i]? = some text := h
    simp [ofNumber?, Word.sub?, found]

theorem exists_of_mem_contextAround {row : ContextLine}
    (h : row ∈ contextAround lines line radius) :
    ∃ text, Lines.get? lines row.number = some text ∧
      row = ⟨row.number, String.ofList (Text.trimRight text.toList), row.number = line⟩ := by
  unfold contextAround at h
  split at h
  · cases h
  · obtain ⟨⟨text, n⟩, listed, rfl⟩ := List.mem_map.mp h
    obtain ⟨first, found⟩ :=
      List.mk_mem_zipIdx_iff_le_and_getElem?_sub.mp (List.mem_filter.mp listed).1
    refine ⟨text, ?_, rfl⟩
    obtain ⟨i, rfl⟩ := Nat.exists_eq_add_of_le' first
    exact found

theorem numbers_contextAround (first : 1 ≤ line) :
    (contextAround lines line radius).map (·.number) =
      (List.range' 1 lines.length).filter fun n => line ≤ n + radius && n ≤ line + radius := by
  have near := List.filter_map (l := lines.zipIdx 1) (f := Prod.snd)
    (p := fun n => decide (line ≤ n + radius) && decide (n ≤ line + radius))
  rw [List.zipIdx_map_snd] at near
  rw [contextAround, if_neg (Nat.ne_of_gt first), near, List.map_map]
  rfl

theorem filter_near (count line radius : Nat) :
    ((List.range' 1 count).filter fun n => line ≤ n + radius && n ≤ line + radius) =
      List.range' (max (line - radius) 1)
        (min (line + radius) count + 1 - max (line - radius) 1) := by
  have ordered : (List.range' 1 count).Pairwise (· < ·) := List.pairwise_lt_range'
  refine (ordered.filter _).eq_of_mem_iff List.pairwise_lt_range' fun n => ?_
  simp only [List.mem_filter, List.mem_range'_1, Bool.and_eq_true, decide_eq_true_eq]
  omega

theorem mem_numbers (first : 1 ≤ line) (n : Nat) :
    n ∈ (contextAround lines line radius).map (·.number) ↔
      1 ≤ n ∧ n ≤ lines.length ∧ ((n : Int) - line).natAbs ≤ radius := by
  rw [numbers_contextAround first]
  simp only [List.mem_filter, List.mem_range'_1, Bool.and_eq_true, decide_eq_true_eq]
  omega

theorem contextAround_surrounds (first : 1 ≤ line) :
    Surrounds lines line radius (contextAround lines line radius) where
  consecutive := by
    have numbers := @numbers_contextAround lines line radius first
    rw [filter_near] at numbers
    have length := congrArg List.length numbers
    rw [List.length_map, List.length_range'] at length
    exact ⟨_, length ▸ numbers⟩
  near := mem_numbers first
  text := by
    intro row shown
    obtain ⟨text, found, same⟩ := exists_of_mem_contextAround shown
    obtain ⟨blanks, split, blank, last⟩ := Text.trimRight_split text.toList
    have trimmed : row.text.toList = Text.trimRight text.toList := by
      rw [same, String.toList_ofList]
    exact ⟨text, found, blanks, trimmed ▸ split, blank, trimmed ▸ last⟩
  marked := by
    intro row shown
    obtain ⟨text, -, same⟩ := exists_of_mem_contextAround shown
    rw [same]
    exact decide_eq_true_iff

theorem mapM_map_eq_some {α β : Type} {f : β → Option α} {g : α → β} {xs : List α}
    (h : ∀ x ∈ xs, f (g x) = some x) : (xs.map g).mapM f = some xs := by
  induction xs with
  | nil => rfl
  | cons x xs ih =>
    rw [List.forall_mem_cons] at h
    simp [List.mapM_cons, h.1, ih h.2]

/-- The machine finds the window, whatever the line and the radius. -/
theorem window?_eq {top : Nat} (word : lines.length ≤ top) (line radius : Nat) :
    window? top lines line radius = some (contextAround lines line radius) := by
  unfold window?
  split
  · rename_i none
    rcases none with rfl | rfl
    · simp [contextAround]
    · rfl
  · rename_i some
    rw [not_or] at some
    have first := Nat.pos_of_ne_zero some.2
    -- The sum stays at the largest word only where the lines end before it anyway.
    have last : min (min (line + radius) top) lines.length = min (line + radius) lines.length := by
      omega
    simp only [Word.saturatingSub_eq, Word.saturatingAdd_eq, last]
    rw [← filter_near, ← numbers_contextAround first]
    refine mapM_map_eq_some fun row shown => ?_
    obtain ⟨text, found, same⟩ := exists_of_mem_contextAround shown
    rw [ContextLine.ofNumber?_eq found, ← same]

end Rows

/-- The machine never stops on its way through the window, and shows just the lines at most
`radius` away from a line, be this line one of them or not. -/
theorem window_exact (lines : List String) {top : Nat} (word : lines.length ≤ top) {line : Nat}
    (first : 1 ≤ line) (radius : Nat) :
    window? top lines line radius = some (contextAround lines line radius) ∧
      Surrounds lines line radius (contextAround lines line radius) :=
  ⟨window?_eq word line radius, contextAround_surrounds first⟩

theorem window_exact_largest :
    (2 ≤ 18446744073709551615 ∧
      Word.add? 18446744073709551615 18446744073709551615 18446744073709551615 = none) ∧
    window? 18446744073709551615 ["miaou \t", "meow"] 18446744073709551615 18446744073709551615 =
      some [⟨1, "miaou", false⟩, ⟨2, "meow", false⟩] := by
  have shown : contextAround ["miaou \t", "meow"] 18446744073709551615 18446744073709551615 =
      [⟨1, "miaou", false⟩, ⟨2, "meow", false⟩] := by decide +kernel
  refine ⟨by decide +kernel, ?_⟩
  rw [(window_exact ["miaou \t", "meow"] (by decide) (by decide) _).1, shown]

end Miaou
