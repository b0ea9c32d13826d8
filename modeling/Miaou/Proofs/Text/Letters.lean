import Mathlib.Data.List.Forall2
import Miaou.Position
import Miaou.Proofs.Text.Runs
import Miaou.Text.Alphabetic

/-!
Texts that differ in the case of ASCII letters. A test that is constant on letters does not tell
such texts apart, so they are cut at the same places; line feeds are no letters, so the texts are
also laid out alike.
-/

namespace Miaou.Text

def SameLetter (c c' : Char) : Prop := c'.toLower = c.toLower

instance (c c' : Char) : Decidable (SameLetter c c') := inferInstanceAs (Decidable (_ = _))

abbrev SameLetters (cs cs' : List Char) : Prop := List.Forall₂ SameLetter cs cs'

theorem toLower_of_isUpper {c : Char} (h : c.isUpper = true) : c.toLower.isLower = true := by
  have upper : c.val ≥ 'A'.val ∧ c.val ≤ 'Z'.val := of_decide_eq_true h
  have low : 65 ≤ c.val.toNat := UInt32.le_iff_toNat_le.mp upper.1
  have high : c.val.toNat ≤ 90 := UInt32.le_iff_toNat_le.mp upper.2
  have moved : c.toLower.val.toNat = c.val.toNat + 32 := by
    have lowered : c.toLower = ⟨c.val + ('a'.val - 'A'.val), _⟩ := dif_pos upper
    rw [lowered, UInt32.toNat_add]
    exact Nat.mod_eq_of_lt (by change c.val.toNat + 32 < 2 ^ 32; omega)
  have low' : 'a'.val ≤ c.toLower.val :=
    UInt32.le_iff_toNat_le.mpr (by change 97 ≤ c.toLower.val.toNat; omega)
  have high' : c.toLower.val ≤ 'z'.val :=
    UInt32.le_iff_toNat_le.mpr (by change c.toLower.val.toNat ≤ 122; omega)
  exact Bool.and_eq_true_iff.mpr ⟨decide_eq_true low', decide_eq_true high'⟩

theorem toLower_of_not_isUpper {c : Char} (h : c.isUpper ≠ true) : c.toLower = c :=
  dif_neg fun upper => h (decide_eq_true upper)

theorem toLower_of_isDigit {c : Char} (h : c.isDigit = true) : c.toLower = c := by
  refine toLower_of_not_isUpper fun letter => ?_
  have upper : c.val ≥ 'A'.val ∧ c.val ≤ 'Z'.val := of_decide_eq_true letter
  have low : 65 ≤ c.toNat := UInt32.le_iff_toNat_le.mp upper.1
  have high : c.toNat ≤ 57 := (Char.isDigit_iff_toNat.mp h).2
  omega

theorem toNat_lt_of_isAlpha {c : Char} (h : c.isAlpha = true) : c.toNat < 128 := by
  change (decide (c.val ≥ 65 ∧ c.val ≤ 90) || c.val ≥ 97 && c.val ≤ 122) = true at h
  simp only [Bool.or_eq_true, Bool.and_eq_true, decide_eq_true_eq, ge_iff_le,
    UInt32.le_iff_toNat_le] at h
  change 65 ≤ c.toNat ∧ c.toNat ≤ 90 ∨ 97 ≤ c.toNat ∧ c.toNat ≤ 122 at h
  omega

theorem isAlpha_eq_false {p : Char → Bool} {c : Char}
    (letters : ∀ d, d.isAlpha = true → p d = false) (h : p c = true) : c.isAlpha = false := by
  by_contra letter
  rw [letters c (by simpa using letter)] at h
  cases h

theorem isLetter_of_isAlpha {c : Char} (h : c.isAlpha = true) : isLetter c = true := by
  rw [isLetter, if_pos (toNat_lt_of_isAlpha h), h]

namespace SameLetter

variable {c c' : Char} (h : SameLetter c c')

include h

theorem eq_or : c' = c ∨ c.isAlpha = true ∧ c'.isAlpha = true := by
  rw [SameLetter] at h
  change c' = c ∨ (c.isUpper || c.isLower) = true ∧ (c'.isUpper || c'.isLower) = true
  rw [Bool.or_eq_true, Bool.or_eq_true]
  by_cases upper : c.isUpper = true <;> by_cases upper' : c'.isUpper = true
  · exact .inr ⟨.inl upper, .inl upper'⟩
  · have lower := toLower_of_isUpper upper
    rw [← h, toLower_of_not_isUpper upper'] at lower
    exact .inr ⟨.inl upper, .inr lower⟩
  · have lower := toLower_of_isUpper upper'
    rw [h, toLower_of_not_isUpper upper] at lower
    exact .inr ⟨.inr lower, .inl upper'⟩
  · rw [toLower_of_not_isUpper upper, toLower_of_not_isUpper upper'] at h
    exact .inl h

theorem eq_of_not_isAlpha (plain : c.isAlpha = false) : c' = c :=
  h.eq_or.resolve_right fun letters => Bool.false_ne_true (plain.symm.trans letters.1)

theorem eq_iff {k : Char} (plain : k.isAlpha = false) : c' = k ↔ c = k := by
  rcases h.eq_or with rfl | ⟨letter, letter'⟩
  · rfl
  · refine iff_of_false ?_ ?_ <;> rintro rfl
    · exact Bool.false_ne_true (plain.symm.trans letter')
    · exact Bool.false_ne_true (plain.symm.trans letter)

theorem test {p : Char → Bool} {b : Bool} (letters : ∀ d, d.isAlpha = true → p d = b) :
    p c' = p c := by
  rcases h.eq_or with rfl | ⟨letter, letter'⟩
  · rfl
  · rw [letters c letter, letters c' letter']

end SameLetter

theorem SameLetters.refl (cs : List Char) : SameLetters cs cs :=
  List.forall₂_same.mpr fun _ _ => rfl

namespace SameLetters

variable {cs cs' : List Char} (h : SameLetters cs cs')

include h

theorem lower : cs'.map Char.toLower = cs.map Char.toLower := by
  induction h with
  | nil => rfl
  | cons same _ ih => exact congrArg₂ List.cons same ih

theorem eq_of_not_isAlpha (plain : ∀ c ∈ cs, c.isAlpha = false) : cs' = cs := by
  induction h with
  | nil => rfl
  | cons same _ ih =>
    rw [same.eq_of_not_isAlpha (plain _ List.mem_cons_self),
      ih fun c hc => plain c (List.mem_cons_of_mem _ hc)]

theorem mem_iff {k : Char} (plain : k.isAlpha = false) : k ∈ cs' ↔ k ∈ cs := by
  induction h with
  | nil => rfl
  | cons same _ ih =>
    rw [List.mem_cons, List.mem_cons, ih, eq_comm, same.eq_iff plain, eq_comm]

theorem after (p : Position) : p.after cs' = p.after cs := by
  induction h generalizing p with
  | nil => rfl
  | cons same _ ih =>
    simp [ih, Position.next, same.eq_iff (k := '\n') rfl]

theorem stops {p : Char → Bool} {b : Bool} (letters : ∀ d, d.isAlpha = true → p d = b)
    (stop : Stops p cs) : Stops p cs' := by
  cases h with
  | nil => exact stop
  | cons same _ => simpa using (same.test letters).trans (stops_cons.mp stop)

theorem span {p : Char → Bool} {b : Bool} (letters : ∀ d, d.isAlpha = true → p d = b) :
    SameLetters (cs.takeWhile p) (cs'.takeWhile p) ∧
      SameLetters (cs.dropWhile p) (cs'.dropWhile p) := by
  induction h with
  | nil => exact ⟨.nil, .nil⟩
  | @cons c c' cs cs' same more ih =>
    rw [List.takeWhile_cons, List.takeWhile_cons, List.dropWhile_cons, List.dropWhile_cons,
      same.test letters]
    cases p c with
    | true => exact ⟨.cons same ih.1, ih.2⟩
    | false => exact ⟨.nil, .cons same more⟩

theorem takeWhile_eq {p : Char → Bool} (letters : ∀ d, d.isAlpha = true → p d = false) :
    cs'.takeWhile p = cs.takeWhile p :=
  (h.span letters).1.eq_of_not_isAlpha fun _ hc =>
    isAlpha_eq_false letters (List.mem_takeWhile_imp hc)

end SameLetters

theorem SameLetters.split {xs ys zs : List Char} (h : SameLetters (xs ++ ys) zs) :
    ∃ xs' ys', zs = xs' ++ ys' ∧ SameLetters xs xs' ∧ SameLetters ys ys' := by
  refine ⟨zs.take xs.length, zs.drop xs.length, (List.take_append_drop _ _).symm, ?_, ?_⟩
  · have front := List.forall₂_take xs.length h
    rwa [List.take_left] at front
  · have behind := List.forall₂_drop xs.length h
    rwa [List.drop_left] at behind

theorem SameLetters.pass {xs ys zs : List Char} (plain : ∀ c ∈ xs, c.isAlpha = false)
    (h : SameLetters (xs ++ ys) zs) : ∃ ys', zs = xs ++ ys' ∧ SameLetters ys ys' := by
  obtain ⟨xs', ys', rfl, front, behind⟩ := h.split
  exact ⟨ys', by rw [front.eq_of_not_isAlpha plain], behind⟩

theorem SameLetters.pass_cons {c : Char} {ys zs : List Char} (plain : c.isAlpha = false)
    (h : SameLetters (c :: ys) zs) : ∃ ys', zs = c :: ys' ∧ SameLetters ys ys' := by
  cases h with
  | cons first more => exact ⟨_, by rw [first.eq_of_not_isAlpha plain], more⟩

end Miaou.Text
