import Mathlib.Data.List.Find
import Mathlib.Data.List.Infix
import Mathlib.Data.List.Range
import Miaou.Proofs.Diagnostic.Filling

/-!
Placeholders are filled all at once. Each place of a template can be looked at on its own: if a
placeholder of a known name begins there, the place contributes the value of the name, inside such a
placeholder it contributes nothing, and elsewhere its character. The filled template is what its
places contribute, one after the other, so no value is ever looked into and no brace that belongs to
no such placeholder makes a difference.
-/

namespace Miaou.Template

def opening? (vars : List (String × String)) (cs : List Char) (i : Nat) :
    Option (String × String) :=
  vars.find? fun var => (placeholder var.1).toList.isPrefixOf (cs.drop i)

def extent (name : String) : Nat := name.length + 2

/-- A placeholder that begins before the place goes on there. -/
def covered (vars : List (String × String)) (cs : List Char) (i : Nat) : Bool :=
  (List.range i).any fun j => (opening? vars cs j).any fun var => i < j + extent var.1

/-- What a place of a template adds to the text. -/
def contribution (vars : List (String × String)) (cs : List Char) (i : Nat) : List Char :=
  match opening? vars cs i with
  | some (_, value) => value.toList
  | none => if covered vars cs i then [] else cs[i]?.toList

/-- What the places of a template add, one after the other. -/
def together (vars : List (String × String)) (cs : List Char) : List Char :=
  (List.range cs.length).flatMap (contribution vars cs)

@[simp] theorem toList_placeholder (name : String) :
    (placeholder name).toList = openBrace :: (name.toList ++ [closeBrace]) := by
  rw [placeholder, String.toList_ofList]

theorem length_placeholder (name : String) : (placeholder name).toList.length = extent name := by
  rw [toList_placeholder, extent, List.length_cons, List.length_append, List.length_singleton,
    String.length_toList]

/-! One placeholder -/

/-- The placeholder of a name stands in front exactly if the name is what comes before the next
closing brace. -/
theorem placeholder_isPrefixOf {name : String} (closed : closeBrace ∉ name.toList)
    (cs : List Char) : (placeholder name).toList.isPrefixOf (openBrace :: cs) = true ↔
      (cs.takeWhile (· ≠ closeBrace)).length < cs.length ∧
        String.ofList (cs.takeWhile (· ≠ closeBrace)) = name := by
  have inside : ∀ c ∈ name.toList, decide (c ≠ closeBrace) = true :=
    fun c hc => decide_eq_true fun same => closed (same ▸ hc)
  rw [toList_placeholder, List.isPrefixOf_iff_prefix, List.cons_prefix_cons]
  constructor
  · rintro ⟨-, rest, rfl⟩
    have taken :
        (name.toList ++ [closeBrace] ++ rest).takeWhile (· ≠ closeBrace) = name.toList := by
      rw [List.append_assoc]
      exact Text.takeWhile_run inside (by simp)
    rw [taken]
    exact ⟨by simp, String.ofList_toList⟩
  · rintro ⟨shorter, rfl⟩
    refine ⟨rfl, ?_⟩
    rw [String.toList_ofList]
    have whole := List.takeWhile_append_dropWhile (p := (· ≠ closeBrace)) (l := cs)
    cases behind : cs.dropWhile (· ≠ closeBrace) with
    | nil =>
      rw [behind, List.append_nil] at whole
      exact absurd (congrArg List.length whole) shorter.ne
    | cons c rest =>
      have stop := Text.stops_dropWhile (· ≠ closeBrace) cs
      rw [behind, Text.stops_cons, decide_eq_false_iff_not, not_not] at stop
      subst stop
      exact ⟨rest, by rw [List.append_assoc, List.singleton_append, ← behind, whole]⟩

theorem find?_eq_lookup (vars : List (String × String)) (name : String) :
    vars.find? (fun var => decide (name = var.1)) = (value? vars name).map (name, ·) := by
  induction vars with
  | nil => rfl
  | cons var vars ih =>
    obtain ⟨other, value⟩ := var
    rw [value?] at ih ⊢
    by_cases same : name = other
    · simp [same]
    · have differ : (name == other) = false := beq_eq_false_iff_ne.mpr same
      rw [List.find?_cons_of_neg (by simpa using same), ih, List.lookup_cons, differ]

section Names

variable {vars : List (String × String)} (plain : ∀ var ∈ vars, Filled var.1.toList)

include plain

theorem known?_eq_opening? (cs : List Char) : known? vars cs =
    (opening? vars (openBrace :: cs) 0).map fun var => (var.2, extent var.1 - 1) := by
  have begins : ∀ var ∈ vars, (placeholder var.1).toList.isPrefixOf (openBrace :: cs) =
      (decide ((cs.takeWhile (· ≠ closeBrace)).length < cs.length) &&
        decide (String.ofList (cs.takeWhile (· ≠ closeBrace)) = var.1)) := by
    intro var member
    rw [Bool.eq_iff_iff, placeholder_isPrefixOf (plain var member).2]
    simp
  have found : opening? vars (openBrace :: cs) 0 =
      if (cs.takeWhile (· ≠ closeBrace)).length < cs.length then
        (value? vars (String.ofList (cs.takeWhile (· ≠ closeBrace)))).map
          (String.ofList (cs.takeWhile (· ≠ closeBrace)), ·)
      else none := by
    rw [opening?, List.drop_zero, List.find?_congr begins]
    split
    · rename_i shorter
      simp only [shorter, decide_true, Bool.true_and, find?_eq_lookup]
    · rename_i whole
      simp only [whole, decide_false, Bool.false_and]
      exact List.find?_eq_none.mpr fun _ _ => Bool.false_ne_true
  rw [found, known?]
  split
  · rw [Option.map_map]
    congr 1
    funext value
    simp [extent]
  · rfl

theorem opening?_inside {i j : Nat} {cs : List Char} {var other : String × String}
    (found : opening? vars cs i = some var) (found' : opening? vars cs j = some other)
    (before : i < j) : i + extent var.1 ≤ j := by
  have member := List.mem_of_find?_eq_some found
  have here := List.find?_some found
  have there := List.find?_some found'
  rw [List.isPrefixOf_iff_prefix] at here there
  by_contra inside
  obtain ⟨k, rfl⟩ : ∃ k, j = i + (k + 1) := ⟨j - i - 1, by omega⟩
  have short : k < (var.1.toList ++ [closeBrace]).length := by
    rw [extent] at inside
    simp only [List.length_append, List.length_singleton, String.length_toList]
    omega
  have brace : (cs.drop i)[k + 1]? = some openBrace := by
    rw [List.getElem?_drop]
    obtain ⟨rest, whole⟩ := there
    rw [toList_placeholder] at whole
    have head := congrArg (·[0]?) whole
    simpa using head.symm
  rw [toList_placeholder] at here
  have within : (openBrace :: (var.1.toList ++ [closeBrace]))[k + 1]? = some openBrace := by
    rw [List.prefix_iff_getElem?.mp here (k + 1) (by simpa using short)] at brace
    rw [List.getElem?_eq_getElem (by simpa using short)]
    exact brace
  rw [List.getElem?_cons_succ] at within
  rcases List.mem_append.mp (List.mem_of_getElem? within) with name | last
  · exact (plain var member).1 name
  · exact absurd (List.mem_singleton.mp last) (by decide)

end Names

/-! The places of a template in two parts -/

theorem opening?_behind (vars : List (String × String)) (done rest : List Char) (i : Nat) :
    opening? vars (done ++ rest) (done.length + i) = opening? vars rest i := by
  rw [opening?, opening?, List.drop_append, List.drop_of_length_le (by omega), List.nil_append,
    Nat.add_sub_cancel_left]

/-- No placeholder that begins in the first part goes on in the second. -/
def Apart (vars : List (String × String)) (done rest : List Char) : Prop :=
  ∀ i < done.length, ∀ var, opening? vars (done ++ rest) i = some var →
    i + extent var.1 ≤ done.length

section Parts

variable {vars : List (String × String)} {done rest : List Char} (apart : Apart vars done rest)

include apart

theorem covered_behind (i : Nat) :
    covered vars (done ++ rest) (done.length + i) = covered vars rest i := by
  have outside : ((List.range done.length).any fun j => (opening? vars (done ++ rest) j).any
      fun var => done.length + i < j + extent var.1) = false := by
    rw [List.any_eq_false]
    intro j member
    cases found : opening? vars (done ++ rest) j with
    | none => simp
    | some var =>
      have ends := apart j (List.mem_range.mp member) var found
      simp only [Option.any_some, decide_eq_true_eq]
      omega
  rw [covered, covered, List.range_add, List.any_append, outside, Bool.false_or, List.any_map]
  congr 1
  funext j
  simp only [Function.comp_apply, opening?_behind, Nat.add_assoc, Nat.add_lt_add_iff_left]

theorem contribution_behind (i : Nat) :
    contribution vars (done ++ rest) (done.length + i) = contribution vars rest i := by
  rw [contribution, contribution, opening?_behind, covered_behind apart,
    List.getElem?_append_right (Nat.le_add_right _ _), Nat.add_sub_cancel_left]

theorem together_append : together vars (done ++ rest) =
    (List.range done.length).flatMap (contribution vars (done ++ rest)) ++ together vars rest := by
  rw [together, List.length_append, List.range_add, List.flatMap_append, List.flatMap_map]
  congr 2
  funext i
  exact contribution_behind apart i

end Parts

theorem together_cons {vars : List (String × String)} {c : Char} {cs : List Char}
    (none : opening? vars (c :: cs) 0 = none) :
    together vars (c :: cs) = c :: together vars cs := by
  have apart : Apart vars [c] cs := by
    intro i first var found
    obtain rfl : i = 0 := Nat.lt_one_iff.mp first
    exact absurd (none.symm.trans found) (by simp)
  have parts := together_append apart
  have alone : (List.range [c].length).flatMap (contribution vars ([c] ++ cs)) = [c] := by
    simp [contribution, none, covered]
  rw [alone] at parts
  exact parts

theorem opening?_plain (vars : List (String × String)) {c : Char} (h : c ≠ openBrace)
    (cs : List Char) : opening? vars (c :: cs) 0 = none := by
  rw [opening?, List.find?_eq_none]
  intro var _
  simp [Ne.symm h]

section Names

variable {vars : List (String × String)} (plain : ∀ var ∈ vars, Filled var.1.toList)

include plain

theorem together_placeholder {cs : List Char} {var : String × String}
    (found : opening? vars cs 0 = some var) :
    together vars cs = var.2.toList ++ together vars (cs.drop (extent var.1)) := by
  have stands := List.find?_some found
  rw [List.drop_zero, List.isPrefixOf_iff_prefix] at stands
  obtain ⟨rest, rfl⟩ := stands
  have apart : Apart vars (placeholder var.1).toList rest := by
    intro i inside other found'
    rw [length_placeholder] at inside ⊢
    by_cases first : i = 0
    · subst first
      cases found.symm.trans found'
      omega
    · exact absurd (opening?_inside plain found found' (Nat.pos_of_ne_zero first)) (by omega)
  have inside : ∀ i < var.1.length + 1,
      contribution vars ((placeholder var.1).toList ++ rest) (i + 1) = [] := by
    intro i short
    have none : opening? vars ((placeholder var.1).toList ++ rest) (i + 1) = none := by
      cases found' : opening? vars ((placeholder var.1).toList ++ rest) (i + 1) with
      | none => rfl
      | some other =>
        have outside := opening?_inside plain found found' (Nat.succ_pos i)
        rw [extent] at outside
        omega
    have within : covered vars ((placeholder var.1).toList ++ rest) (i + 1) = true := by
      rw [covered, List.any_eq_true]
      refine ⟨0, List.mem_range.mpr (Nat.succ_pos i), ?_⟩
      rw [found, Option.any_some, decide_eq_true_eq, extent]
      omega
    simp only [contribution, none, within, if_true]
  have behind : ((placeholder var.1).toList ++ rest).drop (extent var.1) = rest := by
    rw [← length_placeholder, List.drop_left]
  rw [behind, together_append apart, length_placeholder, extent, List.range_succ_eq_map,
    List.flatMap_cons, List.flatMap_map]
  have first : contribution vars ((placeholder var.1).toList ++ rest) 0 = var.2.toList := by
    rw [contribution, found]
  have others : (List.range (var.1.length + 1)).flatMap (fun i =>
      contribution vars ((placeholder var.1).toList ++ rest) i.succ) = [] := by
    rw [List.flatMap_eq_nil_iff]
    exact fun i member => inside i (List.mem_range.mp member)
  rw [first, others, List.append_nil]

/-- Filling a template from left to right adds up what its places contribute. -/
theorem fill_eq_together (cs : List Char) : fill vars cs = together vars cs := by
  fun_induction fill vars cs with
  | case1 => rfl
  | case2 cs value size known ih =>
    rw [known?_eq_opening? plain, Option.map_eq_some_iff] at known
    obtain ⟨var, found, same⟩ := known
    cases same
    rw [together_placeholder plain found, ih, extent]
    rfl
  | case3 cs unknown ih =>
    rw [known?_eq_opening? plain, Option.map_eq_none_iff] at unknown
    rw [together_cons unknown, ih]
  | case4 c cs other ih => rw [together_cons (opening?_plain vars other cs), ih]

end Names

/-! The order of the variables -/

theorem value?_perm {vars vars' : List (String × String)} (perm : vars.Perm vars')
    (unique : (vars.map Prod.fst).Nodup) (name : String) :
    value? vars name = value? vars' name := by
  induction perm with
  | nil => rfl
  | cons var _ ih =>
    have behind := ih (List.nodup_cons.mp unique).2
    rw [value?, value?] at behind ⊢
    rw [List.lookup_cons, List.lookup_cons, behind]
  | swap first second vars =>
    have differ : second.1 ≠ first.1 := by
      intro same
      simp [same] at unique
    rw [value?, value?, List.lookup_cons, List.lookup_cons, List.lookup_cons, List.lookup_cons]
    by_cases here : name = first.1
    · subst here
      have there : (first.1 == second.1) = false := beq_eq_false_iff_ne.mpr differ.symm
      simp [there]
    · have there : (name == first.1) = false := beq_eq_false_iff_ne.mpr here
      simp [there]
  | trans first _ ih ih' =>
    exact (ih unique).trans (ih' ((first.map Prod.fst).nodup_iff.mp unique))

theorem fill_congr {vars vars' : List (String × String)}
    (same : ∀ name, value? vars name = value? vars' name) (cs : List Char) :
    fill vars cs = fill vars' cs := by
  have known (cs : List Char) : known? vars cs = known? vars' cs := by
    simp only [known?, same]
  fun_induction fill vars cs with
  | case1 => rw [fill]
  | case2 cs value size found ih =>
    rw [known] at found
    rw [fill, if_pos rfl, found, ih]
  | case3 cs unknown ih =>
    rw [known] at unknown
    rw [fill, if_pos rfl, unknown, ih]
  | case4 c cs other ih => rw [fill, if_neg other, ih]

/-- Where no name has a brace, a filled template is what its places contribute, each looked at on
its own: the value of the first variable whose placeholder begins there, nothing inside such a
placeholder, and the character everywhere else. These placeholders never overlap, and if each name
has one variable the order of the variables is not seen. -/
theorem substitute_simultaneous {vars : List (String × String)}
    (plain : ∀ var ∈ vars, Filled var.1.toList) (template : String) :
    (substitute vars template).toList =
      (List.range template.toList.length).flatMap (contribution vars template.toList) ∧
    (∀ i j var var', opening? vars template.toList i = some var →
      opening? vars template.toList j = some var' → i < j → i + extent var.1 ≤ j) ∧
    ((vars.map Prod.fst).Nodup → ∀ vars', vars.Perm vars' →
      substitute vars template = substitute vars' template) := by
  refine ⟨?_, fun i j var var' here there => opening?_inside plain here there, ?_⟩
  · rw [substitute, String.toList_ofList, fill_eq_together plain]
    rfl
  · intro unique vars' perm
    rw [substitute, substitute, fill_congr (value?_perm perm unique)]

/-- The first of two variables of a name counts, a value that looks like a placeholder is left as it
is, and so are braces around and before a placeholder. -/
theorem substitute_simultaneous_nested :
    let vars := [("n", String.ofList [openBrace, 'x', closeBrace]), ("x", "1"), ("n", "2")]
    let template := String.ofList
      [openBrace, openBrace, 'n', closeBrace, closeBrace, openBrace, 'y', openBrace, 'x',
        closeBrace, openBrace, 'n']
    (∀ var ∈ vars, Filled var.1.toList) ∧
      substitute vars template = String.ofList
        [openBrace, openBrace, 'x', closeBrace, closeBrace, openBrace, 'y', '1', openBrace, 'n'] ∧
      (substitute vars template).toList =
        (List.range 12).flatMap (contribution vars template.toList) ∧
      substitute (vars.take 2) template = substitute (vars.take 2).reverse template := by
  intro vars template
  have plain : ∀ var ∈ vars, Filled var.1.toList := by decide
  have unique : ((vars.take 2).map Prod.fst).Nodup := by decide
  have size : template.toList.length = 12 := by decide
  obtain ⟨places, -, -⟩ := substitute_simultaneous plain template
  rw [size] at places
  obtain ⟨-, -, order⟩ := substitute_simultaneous
    (fun var member => plain var (List.mem_of_mem_take member)) template
  refine ⟨plain, ?_, places, order unique _ (List.reverse_perm _).symm⟩
  rw [← String.toList_inj, places]
  decide

end Miaou.Template
