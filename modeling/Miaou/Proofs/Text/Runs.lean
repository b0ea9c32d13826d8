import Mathlib.Data.List.TakeWhile

/-!
Runs of characters of one class: cutting a text behind a run, and finding the cut again when the
run is put before a text that does not go on with it.
-/

namespace Miaou.Text

variable {α : Type}

/-- The text does not go on with a member of the class. -/
def Stops (p : α → Bool) (xs : List α) : Prop := ∀ x ∈ xs.head?, p x = false

@[simp] theorem stops_nil (p : α → Bool) : Stops p [] := by
  intro x hx
  cases hx

@[simp] theorem stops_cons {p : α → Bool} {x : α} {xs : List α} :
    Stops p (x :: xs) ↔ p x = false := by
  simp [Stops]

theorem stops_dropWhile (p : α → Bool) (xs : List α) : Stops p (xs.dropWhile p) := by
  intro x hx
  have first := List.head?_dropWhile_not p xs
  rw [hx] at first
  simpa using first

theorem stops_append {p : α → Bool} {xs ys : List α} (hx : Stops p xs) (ne : xs ≠ []) :
    Stops p (xs ++ ys) := by
  cases xs with
  | nil => exact absurd rfl ne
  | cons x xs => simpa using hx

theorem stops_of_append {p : α → Bool} {xs ys : List α} (h : Stops p (xs ++ ys)) :
    Stops p xs := by
  cases xs with
  | nil => exact stops_nil p
  | cons x xs => simpa using h

theorem stops_mono {p q : α → Bool} (h : ∀ x, q x = true → p x = true) {xs : List α}
    (stop : Stops p xs) : Stops q xs := by
  intro x hx
  by_contra member
  have outside := stop x hx
  rw [h x (by simpa using member)] at outside
  cases outside

theorem mem_head?_append {x : α} {xs : List α} (h : x ∈ xs.head?) (ys : List α) :
    x ∈ (xs ++ ys).head? := by
  cases xs with
  | nil => cases h
  | cons y xs => exact h

theorem takeWhile_run {p : α → Bool} {xs ys : List α} (inside : ∀ x ∈ xs, p x = true)
    (stop : Stops p ys) : (xs ++ ys).takeWhile p = xs := by
  rw [List.takeWhile_append_of_pos inside]
  cases ys with
  | nil => simp
  | cons y ys => simp [stops_cons.mp stop]

theorem dropWhile_run {p : α → Bool} {xs ys : List α} (inside : ∀ x ∈ xs, p x = true)
    (stop : Stops p ys) : (xs ++ ys).dropWhile p = ys := by
  rw [List.dropWhile_append_of_pos inside]
  cases ys with
  | nil => simp
  | cons y ys => simp [stops_cons.mp stop]

theorem takeWhile_append_stops {p : α → Bool} {ys : List α} (stop : Stops p ys) (xs : List α) :
    (xs ++ ys).takeWhile p = xs.takeWhile p := by
  have cut : xs.takeWhile p ++ (xs.dropWhile p ++ ys) = xs ++ ys := by
    rw [← List.append_assoc, List.takeWhile_append_dropWhile]
  rw [← cut, takeWhile_run (fun x => List.mem_takeWhile_imp)]
  by_cases none : xs.dropWhile p = []
  · rwa [none]
  · exact stops_append (stops_dropWhile p xs) none

theorem dropWhile_append_stops {p : α → Bool} {ys : List α} (stop : Stops p ys) (xs : List α) :
    (xs ++ ys).dropWhile p = xs.dropWhile p ++ ys := by
  have cut := List.takeWhile_append_dropWhile (p := p) (l := xs ++ ys)
  rw [takeWhile_append_stops stop] at cut
  refine List.append_cancel_left (cut.trans ?_)
  rw [← List.append_assoc, List.takeWhile_append_dropWhile]

/-- No run of the class goes on across the place between the two texts. -/
def Parted (p : α → Bool) (xs ys : List α) : Prop := ∀ x ∈ xs.getLast?, p x = true → Stops p ys

theorem parted_nil (p : α → Bool) (ys : List α) : Parted p [] ys := by
  intro x hx
  cases hx

theorem parted_of_stops {p : α → Bool} {ys : List α} (h : Stops p ys) (xs : List α) :
    Parted p xs ys := fun _ _ _ => h

theorem parted_concat {p : α → Bool} {x : α} (h : p x = false) (xs ys : List α) :
    Parted p (xs ++ [x]) ys := by
  intro z hz member
  rw [List.getLast?_concat, Option.mem_some_iff] at hz
  rw [← hz, h] at member
  cases member

theorem parted_append {p : α → Bool} {ys zs : List α} (h : Parted p ys zs) (ne : ys ≠ [])
    (xs : List α) : Parted p (xs ++ ys) zs := by
  intro x hx
  rw [List.getLast?_append, List.getLast?_eq_some_getLast ne] at hx
  exact h x (List.getLast?_eq_some_getLast ne ▸ hx)

theorem exists_run (p : α → Bool) (xs : List α) :
    ∃ run rest, xs = run ++ rest ∧ (∀ x ∈ run, p x = true) ∧ Stops p rest :=
  ⟨xs.takeWhile p, xs.dropWhile p, List.takeWhile_append_dropWhile.symm,
    fun _ => List.mem_takeWhile_imp, stops_dropWhile p xs⟩

theorem exists_row (cs : List Char) :
    ∃ row ending, cs = row ++ ending ∧ '\n' ∉ row ∧ Stops (· ≠ '\n') ending := by
  obtain ⟨row, ending, whole, inside, stop⟩ := exists_run (· ≠ '\n') cs
  exact ⟨row, ending, whole, fun found => by simpa using inside _ found, stop⟩

end Miaou.Text
