import Miaou.Proofs.Diagnostic.Registry
import Miaou.Proofs.Diagnostic.Substitution

/-!
The variables of a diagnostic are an ordered map. However a diagnostic is completed, each name has
one variable, at the place where it was first set and with the value that was set last. What is
added of one kind is not touched by what is added of another, so it does not matter how variables,
details and lines are mixed.
-/

namespace Miaou

namespace Template

section Values

variable {vars : List (String × String)}

theorem exists_value?_iff {name : String} :
    (∃ value, value? vars name = some value) ↔ name ∈ vars.map Prod.fst := by
  refine ⟨fun ⟨value, known⟩ => ?_, fun member => ?_⟩
  · obtain ⟨_, _, rfl, -⟩ := List.lookup_eq_some_iff.mp known
    simp
  · obtain ⟨var, set, rfl⟩ := List.mem_map.mp member
    cases known : value? vars var.1 with
    | some value => exact ⟨value, rfl⟩
    | none => exact absurd (List.lookup_eq_none_iff.mp known var set) (by simp)

theorem known?_append {cs : List Char} {value : String} {size : Nat}
    (known : known? vars cs = some (value, size)) (rest : List Char) :
    known? vars (cs ++ rest) = some (value, size) ∧ size ≤ cs.length := by
  rw [known?] at known
  split at known
  · rename_i shorter
    have taken : (cs ++ rest).takeWhile (· ≠ closeBrace) = cs.takeWhile (· ≠ closeBrace) := by
      rw [List.takeWhile_append, if_neg shorter.ne]
    have longer : (cs.takeWhile (· ≠ closeBrace)).length < (cs ++ rest).length := by
      rw [List.length_append]
      omega
    obtain ⟨found, -, same⟩ := Option.map_eq_some_iff.mp known
    cases same
    refine ⟨?_, shorter⟩
    rw [known?, taken, if_pos longer, known]
  · cases known

theorem known?_eq_some {cs : List Char} {value : String} {size : Nat}
    (known : known? vars cs = some (value, size)) :
    ∃ name, value? vars name = some value ∧
      (placeholder name).toList <+: openBrace :: cs := by
  rw [known?] at known
  split at known
  · rename_i shorter
    obtain ⟨found, named, same⟩ := Option.map_eq_some_iff.mp known
    cases same
    have closed : closeBrace ∉ (String.ofList (cs.takeWhile (· ≠ closeBrace))).toList := by
      rw [String.toList_ofList]
      exact fun member => by simpa using List.mem_takeWhile_imp member
    exact ⟨_, named, List.isPrefixOf_iff_prefix.mp
      ((placeholder_isPrefixOf closed cs).mpr ⟨shorter, rfl⟩)⟩
  · cases known

variable (plain : ∀ name ∈ vars.map Prod.fst, Filled name.toList)

include plain

theorem value?_eq_none_of_open {name : String} (opens : openBrace ∈ name.toList) :
    value? vars name = none := by
  refine Option.eq_none_iff_forall_ne_some.mpr fun value known => ?_
  exact (plain name (exists_value?_iff.mp ⟨value, known⟩)).1 opens

theorem known?_eq_none_append {cs : List Char} (unknown : known? vars cs = none)
    (rest : List Char) : known? vars (cs ++ openBrace :: rest) = none := by
  by_cases shorter : (cs.takeWhile (· ≠ closeBrace)).length < cs.length
  · have taken : (cs ++ openBrace :: rest).takeWhile (· ≠ closeBrace) =
        cs.takeWhile (· ≠ closeBrace) := by
      rw [List.takeWhile_append, if_neg shorter.ne]
    rw [known?, if_pos shorter, Option.map_eq_none_iff] at unknown
    rw [known?, taken, unknown, Option.map_none, ite_self]
  -- No closing brace before the new opening one, so the name that is looked up would hold a brace.
  · have whole : (cs.takeWhile (· ≠ closeBrace)).length = cs.length :=
      Nat.le_antisymm (List.takeWhile_prefix _).length_le (Nat.le_of_not_lt shorter)
    have opens : openBrace ∈
        (String.ofList ((cs ++ openBrace :: rest).takeWhile (· ≠ closeBrace))).toList := by
      rw [String.toList_ofList, List.takeWhile_append, if_pos whole,
        List.takeWhile_cons_of_pos (by decide)]
      simp
    rw [known?, value?_eq_none_of_open plain opens, Option.map_none, ite_self]

/-- Where a placeholder of a set name stands, its value stands in the text, whatever is around. -/
theorem fill_placeholder {name value : String} (known : value? vars name = some value)
    (before behind : List Char) :
    fill vars (before ++ (placeholder name).toList ++ behind) =
      fill vars before ++ value.toList ++ fill vars behind := by
  have closed := (plain name (exists_value?_iff.mp ⟨value, known⟩)).2
  rw [List.append_assoc, List.append_assoc]
  -- The text in front is read as it would be alone: what is known there stays known with more text
  -- behind it, and an open brace that was not closed there cannot be closed by the placeholder.
  fun_induction fill vars before with
  | case1 =>
    simp [fill_name (by rwa [String.ofList_toList]) closed]
  | case2 cs other size found ih =>
    obtain ⟨found', fits⟩ := known?_append found ((placeholder name).toList ++ behind)
    rw [List.cons_append, fill, if_pos rfl, found']
    simp only [List.drop_append_of_le_length fits, ih, List.append_assoc]
  | case3 cs unknown ih =>
    have unknown' := known?_eq_none_append plain unknown
      (name.toList ++ closeBrace :: behind)
    rw [List.cons_append, fill, if_pos rfl]
    rw [toList_placeholder, List.cons_append, List.append_assoc, List.singleton_append] at ih ⊢
    rw [unknown']
    simp only [ih, List.cons_append]
  | case4 c cs other ih =>
    rw [List.cons_append, fill_plain other, ih, List.cons_append]

omit plain in
theorem fill_eq_self {cs : List Char}
    (none : ∀ name ∈ vars.map Prod.fst, ¬(placeholder name).toList <:+: cs) :
    fill vars cs = cs := by
  fun_induction fill vars cs with
  | case1 => rfl
  | case2 cs value size found ih =>
    obtain ⟨name, known, stands⟩ := known?_eq_some found
    exact absurd stands.isInfix (none name (exists_value?_iff.mp ⟨value, known⟩))
  | case3 cs unknown ih =>
    rw [ih fun name member inside => none name member (inside.trans (List.suffix_cons _ _).isInfix)]
  | case4 c cs other ih =>
    rw [ih fun name member inside => none name member (inside.trans (List.suffix_cons _ _).isInfix)]

end Values

end Template

namespace Diagnostic

open Template

inductive Addition where
  | var (name value : String)
  | internal (detail : String)
  | context (lines : List String) (radius : Nat)
  deriving DecidableEq, Repr

namespace Addition

def var? : Addition → Option (String × String)
  | .var name value => some (name, value)
  | _ => none

def internal? : Addition → Option String
  | .internal detail => some detail
  | _ => none

def context? : Addition → Option (List String × Nat)
  | .context lines radius => some (lines, radius)
  | _ => none

end Addition

def add (d : Diagnostic) : Addition → Diagnostic
  | .var name value => d.withVar name value
  | .internal detail => d.withInternal detail
  | .context lines radius => d.withContext lines radius

def complete (d : Diagnostic) (additions : List Addition) : Diagnostic := additions.foldl add d

inductive Made : Diagnostic → Prop where
  | new (definition : Definition) (file : String) (position : Position) (text : String) :
      Made (ofDefinition definition file position text)
  | raised {c : Catalog} {code : Code} {file : String} {position : Position} {text : String}
      {lines : Option (List String)} {d : Diagnostic}
      (h : c.raise code file position text lines = .ok d) : Made d

def setAll (sets vars : List (String × String)) : List (String × String) :=
  sets.foldl (fun vars var => setVar var.1 var.2 vars) vars

def latestValue? (sets : List (String × String)) (name : String) : Option String :=
  ((sets.filter fun var => var.1 = name).getLast?).map Prod.snd

theorem Made.vars_eq_nil {d : Diagnostic} (h : d.Made) : d.vars = [] := by
  cases h with
  | new => rfl
  | @raised c code file position text lines _ h =>
    cases found : c.get? code with
    | none =>
      rw [Catalog.raise_none found] at h
      cases h
    | some definition =>
      obtain ⟨_, ok⟩ := Catalog.raise_some found file position text lines
      cases h.symm.trans ok
      rfl

theorem complete_eq (d : Diagnostic) (additions : List Addition) :
    d.complete additions =
      { d with
        vars := setAll (additions.filterMap Addition.var?) d.vars
        internal := (additions.filterMap Addition.internal?).foldl (fun _ detail => some detail)
          d.internal
        context := (additions.filterMap Addition.context?).foldl
          (fun _ shown => contextAround shown.1 d.position.line shown.2) d.context } := by
  induction additions generalizing d with
  | nil => rfl
  | cons addition additions ih =>
    change (d.add addition).complete additions = _
    rw [ih]
    cases addition <;> rfl

/-! One variable -/

@[simp] theorem names_setVar (name value : String) (vars : List (String × String)) :
    (setVar name value vars).map Prod.fst =
      if name ∈ vars.map Prod.fst then vars.map Prod.fst else vars.map Prod.fst ++ [name] := by
  induction vars with
  | nil => rfl
  | cons var vars ih =>
    obtain ⟨other, old⟩ := var
    rw [setVar]
    by_cases same : other = name
    · simp [same]
    · rw [if_neg same, List.map_cons, ih]
      by_cases later : name ∈ vars.map Prod.fst
      · simp [later]
      · simp [later, Ne.symm same]

@[simp] theorem value?_cons (other old : String) (vars : List (String × String)) (name : String) :
    value? ((other, old) :: vars) name = if other = name then some old else value? vars name := by
  rw [value?, List.lookup_cons]
  by_cases here : other = name
  · simp [here]
  · rw [if_neg here, beq_eq_false_iff_ne.mpr (Ne.symm here), value?]

@[simp] theorem value?_setVar (name value : String) (vars : List (String × String))
    (wanted : String) :
    value? (setVar name value vars) wanted =
      if name = wanted then some value else value? vars wanted := by
  induction vars with
  | nil => exact value?_cons name value [] wanted
  | cons var vars ih =>
    obtain ⟨other, old⟩ := var
    rw [setVar, value?_cons]
    split
    · rename_i same
      subst same
      rw [value?_cons]
      split <;> rfl
    · rename_i differ
      rw [value?_cons, ih]
      by_cases here : other = wanted
      · have apart : name ≠ wanted := fun same => differ (here.trans same.symm)
        rw [if_pos here, if_pos here, if_neg apart]
      · rw [if_neg here, if_neg here]

/-! All variables -/

@[simp] theorem setAll_concat (sets : List (String × String)) (var : String × String)
    (vars : List (String × String)) :
    setAll (sets ++ [var]) vars = setVar var.1 var.2 (setAll sets vars) := by
  rw [setAll, List.foldl_concat, setAll]

@[simp] theorem latestValue?_concat (sets : List (String × String)) (var : String × String)
    (name : String) :
    latestValue? (sets ++ [var]) name =
      if var.1 = name then some var.2 else latestValue? sets name := by
  rw [latestValue?, latestValue?, getLast?_filter_concat]
  by_cases here : var.1 = name <;> simp [here]

theorem names_setAll (sets : List (String × String)) :
    (setAll sets []).map Prod.fst = (sets.map Prod.fst).eraseDups := by
  induction sets using List.reverseRecOn with
  | nil => rfl
  | append_singleton sets var ih =>
    rw [setAll_concat, names_setVar, ih, List.map_append, List.eraseDups_append, List.map_singleton,
      List.cons_removeAll]
    by_cases known : var.1 ∈ sets.map Prod.fst
    · rw [if_pos (List.mem_eraseDups.mpr known), if_neg (by simpa using known), List.nil_removeAll,
        List.eraseDups_nil, List.append_nil]
    · rw [if_neg fun member => known (List.mem_eraseDups.mp member), if_pos (by simpa using known),
        List.nil_removeAll, List.eraseDups_cons, List.filter_nil, List.eraseDups_nil]

theorem nodup_setAll (sets : List (String × String)) :
    ((setAll sets []).map Prod.fst).Nodup := by
  induction sets using List.reverseRecOn with
  | nil => exact List.nodup_nil
  | append_singleton sets var ih =>
    rw [setAll_concat, names_setVar]
    split
    · exact ih
    · rename_i unknown
      exact List.nodup_append_comm.mp (List.nodup_cons.mpr ⟨unknown, ih⟩)

@[simp] theorem value?_setAll (sets : List (String × String)) (name : String) :
    value? (setAll sets []) name = latestValue? sets name := by
  induction sets using List.reverseRecOn with
  | nil => rfl
  | append_singleton sets var ih => simp [ih]

/-- A diagnostic that came from another one, with these variables set on the way. -/
structure Completes (d e : Diagnostic) (sets : List (String × String)) : Prop where
  nodup : (e.vars.map Prod.fst).Nodup
  names : e.vars.map Prod.fst = (sets.map Prod.fst).eraseDups
  var : ∀ name, e.var? name = latestValue? sets name
  filled : (∀ name ∈ sets.map Prod.fst, Filled name.toList) → ∀ name value before behind,
    e.var? name = some value →
      e.render (before ++ placeholder name ++ behind) =
        e.render before ++ value ++ e.render behind
  kept : ∀ template, (∀ name ∈ sets.map Prod.fst,
    ¬(placeholder name).toList <:+: template.toList) → e.render template = template
  definition : e.definition = d.definition
  file : e.file = d.file
  position : e.position = d.position
  text : e.text = d.text

theorem render_placeholder {d : Diagnostic}
    (plain : ∀ name ∈ d.vars.map Prod.fst, Filled name.toList) {name value : String}
    (known : d.var? name = some value) (before behind : String) :
    d.render (before ++ placeholder name ++ behind) =
      d.render before ++ value ++ d.render behind := by
  rw [← String.toList_inj]
  simp only [render, substitute, String.toList_append, String.toList_ofList]
  exact fill_placeholder plain known before.toList behind.toList

theorem render_eq_self {d : Diagnostic} {template : String}
    (none : ∀ name ∈ d.vars.map Prod.fst, ¬(placeholder name).toList <:+: template.toList) :
    d.render template = template := by
  rw [render, substitute, fill_eq_self none, String.ofList_toList]

/-- However a diagnostic is completed, its variables are an ordered map: each name stands once, in
the order in which the names were first set, and has the value that was set last, which takes the
place of its placeholders. Nothing else of the diagnostic changes but its detail and its lines, and
only the order among additions of one kind matters. -/
theorem complete_ordered {d : Diagnostic} (made : d.Made) (additions : List Addition) :
    d.Completes (d.complete additions) (additions.filterMap Addition.var?) ∧
      ∀ others : List Addition,
        others.filterMap Addition.var? = additions.filterMap Addition.var? →
        others.filterMap Addition.internal? = additions.filterMap Addition.internal? →
        others.filterMap Addition.context? = additions.filterMap Addition.context? →
          d.complete others = d.complete additions := by
  have vars : (d.complete additions).vars = setAll (additions.filterMap Addition.var?) [] := by
    rw [complete_eq, made.vars_eq_nil]
  have names : (d.complete additions).vars.map Prod.fst =
      ((additions.filterMap Addition.var?).map Prod.fst).eraseDups := by
    rw [vars, names_setAll]
  have members : ∀ name, name ∈ (d.complete additions).vars.map Prod.fst →
      name ∈ (additions.filterMap Addition.var?).map Prod.fst := by
    intro name member
    rwa [names, List.mem_eraseDups] at member
  refine ⟨⟨?_, names, fun name => ?_, fun plain name value before behind known => ?_,
    fun template none => ?_, ?_, ?_, ?_, ?_⟩, fun others sets details shown => ?_⟩
  · rw [vars]
    exact nodup_setAll _
  · rw [var?, vars, value?_setAll]
  · exact render_placeholder (fun name member => plain name (members name member)) known _ _
  · exact render_eq_self fun name member => none name (members name member)
  · rw [complete_eq]
  · rw [complete_eq]
  · rw [complete_eq]
  · rw [complete_eq]
  · rw [complete_eq, complete_eq, sets, details, shown]

theorem complete_ordered_again :
    let additions : List Addition :=
      [.var "cat" "x", .internal "host", .var "dog" "y", .var "cat" "chaton"]
    let others : List Addition :=
      [.internal "host", .var "cat" "x", .var "dog" "y", .var "cat" "chaton"]
    ∃ d, Catalog.standard.raise .undefinedVariable "chat.miaou" .start "x" none = .ok d ∧ d.Made ∧
      (d.complete additions).vars.map Prod.fst = ["cat", "dog"] ∧
      (d.complete additions).var? "cat" = some "chaton" ∧
      (d.complete additions).var? "bird" = none ∧
      (d.complete additions).render ("Le " ++ placeholder "cat" ++ ".") = "Le chaton." ∧
      (d.complete additions).text = "x" ∧ d.complete others = d.complete additions := by
  intro additions others
  have known : Catalog.standard.contains .undefinedVariable = true := by decide
  obtain ⟨definition, found⟩ := Option.isSome_iff_exists.mp known
  obtain ⟨context, raised⟩ := Catalog.raise_some found "chat.miaou" .start "x" none
  obtain ⟨completes, mixed⟩ := complete_ordered (.raised raised) additions
  have cat : latestValue? (additions.filterMap Addition.var?) "cat" = some "chaton" := by decide
  have bird : latestValue? (additions.filterMap Addition.var?) "bird" = none := by decide
  have plain : ∀ name ∈ (additions.filterMap Addition.var?).map Prod.fst, Filled name.toList := by
    decide
  have before := completes.kept "Le " (by decide)
  have behind := completes.kept "." (by decide)
  have filled := completes.filled plain "cat" "chaton" "Le " "." ((completes.var "cat").trans cat)
  rw [before, behind] at filled
  exact ⟨_, raised, .raised raised, completes.names.trans (by decide),
    (completes.var "cat").trans cat, (completes.var "bird").trans bird,
    filled.trans (by decide), completes.text,
    mixed others rfl rfl rfl⟩

end Diagnostic

end Miaou
