import Miaou.Proofs.Diagnostic.Wording

/-!
No placeholder is left in what a diagnostic of a script says. A template asks for some names and has
no brace besides its placeholders; once each of these names has a value without braces, no brace is
left in the text. The standard catalog asks for nothing but what was expected, and only under the
codes whose faults tell it.
-/

namespace Miaou

namespace Template

def Filled (cs : List Char) : Prop := openBrace ∉ cs ∧ closeBrace ∉ cs

instance (cs : List Char) : Decidable (Filled cs) := inferInstanceAs (Decidable (_ ∧ _))

/-- A template that has placeholders of these names only, and no brace besides. -/
inductive Asks (names : List String) : List Char → Prop where
  | nothing : Asks names []
  | plain {c : Char} {cs : List Char} (notOpen : c ≠ openBrace) (notClose : c ≠ closeBrace)
      (more : Asks names cs) : Asks names (c :: cs)
  | name {name cs : List Char} (known : String.ofList name ∈ names) (closed : closeBrace ∉ name)
      (more : Asks names cs) : Asks names (openBrace :: (name ++ closeBrace :: cs))

/-- Whether a template asks for these names only; `name?` is what has been passed of a placeholder
that is still open. -/
def asks (names : List String) : (name? : Option (List Char)) → List Char → Bool
  | none, [] => true
  | some _, [] => false
  | none, c :: cs =>
    if c = openBrace then asks names (some []) cs else c ≠ closeBrace && asks names none cs
  | some name, c :: cs =>
    if c = closeBrace then names.contains (String.ofList name) && asks names none cs
    else asks names (some (name ++ [c])) cs

theorem asks_sound {names : List String} {cs : List Char} :
    (asks names none cs = true → Asks names cs) ∧
      ∀ name, closeBrace ∉ name → asks names (some name) cs = true →
        Asks names (openBrace :: (name ++ cs)) := by
  induction cs with
  | nil => exact ⟨fun _ => .nothing, fun name _ open' => nomatch open'⟩
  | cons c cs ih =>
    constructor
    · intro checked
      rw [asks] at checked
      by_cases opens : c = openBrace
      · rw [if_pos opens] at checked
        exact opens ▸ ih.2 [] List.not_mem_nil checked
      · rw [if_neg opens, Bool.and_eq_true, decide_eq_true_eq] at checked
        exact .plain opens checked.1 (ih.1 checked.2)
    · intro name closed checked
      rw [asks] at checked
      by_cases closes : c = closeBrace
      · rw [if_pos closes, Bool.and_eq_true, List.contains_iff_mem] at checked
        exact closes ▸ .name checked.1 closed (ih.1 checked.2)
      · rw [if_neg closes] at checked
        have more := ih.2 (name ++ [c]) (by simp [closed, Ne.symm closes]) checked
        rwa [List.append_assoc, List.singleton_append] at more

variable {names : List String} {s t : String}

theorem Asks.literal {cs : List Char} (h : asks names none cs = true) :
    Asks names (String.ofList cs).toList := by
  rw [String.toList_ofList]
  exact asks_sound.1 h

theorem Asks.append (h : Asks names s.toList) (h' : Asks names t.toList) :
    Asks names (s ++ t).toList := by
  rw [String.toList_append]
  generalize s.toList = cs at h
  induction h with
  | nothing => exact h'
  | plain notOpen notClose _ ih => exact .plain notOpen notClose ih
  | @name name cs known closed _ ih =>
    rw [List.cons_append, List.append_assoc, List.cons_append]
    exact .name known closed ih

theorem Asks.expected {before behind : List Char} (h : asks ["expected"] none before = true)
    (h' : asks ["expected"] none behind = true) : Asks ["expected"]
      (String.ofList before ++ placeholder "expected" ++ String.ofList behind).toList :=
  .append (.append (.literal h) (asks_sound.1 (by decide))) (.literal h')

variable {vars : List (String × String)}

@[simp] theorem fill_plain {c : Char} (h : c ≠ openBrace) (cs : List Char) :
    fill vars (c :: cs) = c :: fill vars cs := by
  rw [fill, if_neg h]

theorem fill_name {name : List Char} {value : String}
    (known : value? vars (String.ofList name) = some value) (closed : closeBrace ∉ name)
    (cs : List Char) :
    fill vars (openBrace :: (name ++ closeBrace :: cs)) = value.toList ++ fill vars cs := by
  have inside : ∀ c ∈ name, decide (c ≠ closeBrace) = true :=
    fun c hc => decide_eq_true fun same => closed (same ▸ hc)
  have taken : (name ++ closeBrace :: cs).takeWhile (· ≠ closeBrace) = name :=
    Text.takeWhile_run inside (by simp)
  have shorter : name.length < (name ++ closeBrace :: cs).length := by simp
  have found : known? vars (name ++ closeBrace :: cs) = some (value, name.length + 1) := by
    simp only [known?, taken, if_pos shorter, known, Option.map_some]
  have behind : (name ++ closeBrace :: cs).drop (name.length + 1) = cs := by
    rw [List.drop_length_add_append]
    rfl
  rw [fill, if_pos rfl, found]
  simp only [behind]

theorem filled_append {cs ds : List Char} (h : Filled cs) (h' : Filled ds) : Filled (cs ++ ds) := by
  simp only [Filled, List.mem_append, not_or]
  exact ⟨⟨h.1, h'.1⟩, h.2, h'.2⟩

theorem Asks.filled {names : List String} {cs : List Char} (h : Asks names cs)
    (known : ∀ name ∈ names, ∃ value, value? vars name = some value ∧ Filled value.toList) :
    Filled (fill vars cs) := by
  induction h with
  | nothing =>
    rw [fill]
    exact ⟨List.not_mem_nil, List.not_mem_nil⟩
  | plain notOpen notClose more ih =>
    rw [fill_plain notOpen]
    refine @filled_append [_] _ ⟨?_, ?_⟩ ih
    · simpa using Ne.symm notOpen
    · simpa using Ne.symm notClose
  | name asked closed more ih =>
    obtain ⟨value, found, filled⟩ := known _ asked
    rw [fill_name found closed]
    exact filled_append filled ih

end Template

def Definition.templates (e : Definition) : List String := [e.tech, e.meow, e.suggestion, e.sample]

def Code.asked (code : Code) : List String :=
  if code = .missingDelimiter ∨ code = .missingElement then ["expected"] else []

theorem Catalog.standard_asks {code : Code} (script : code.text ∈ scriptCodes)
    {definition : Definition} (found : standard.get? code = some definition) :
    ∀ template ∈ definition.templates, Template.Asks code.asked template.toList := by
  cases code
  case missingDelimiter | missingElement =>
    cases found
    simp only [Definition.templates, List.forall_mem_cons]
    exact ⟨.expected (by decide) (by decide), .expected (by decide) (by decide),
      .literal (by decide), .literal (by decide), List.forall_mem_nil _⟩
  all_goals first
    | exact absurd script (by decide)
    | cases found
      simp only [Definition.templates, List.forall_mem_cons]
      exact ⟨.literal (by decide), .literal (by decide), .literal (by decide), .literal (by decide),
        List.forall_mem_nil _⟩

theorem Cause.asked_cases (cause : Cause) :
    cause.code.asked = cause.expected?.toList.map fun _ => "expected" := by
  cases cause <;> rfl

theorem Cause.filled_expected (cause : Cause) :
    ∀ expected ∈ cause.expected?, Template.Filled expected.toList := by
  cases cause with
  | missingDelimiter expected => cases expected <;> decide
  | missingElement expected => cases expected <;> decide
  | _ => exact fun expected none => nomatch none

theorem Fault.diagnostic_vars (fault : Fault) (definition : Definition) (file : String)
    (lines : List String) : ∀ name ∈ fault.cause.code.asked, ∃ value,
      (fault.diagnostic definition file lines).var? name = some value ∧
        Template.Filled value.toList := by
  intro name asked
  rw [Cause.asked_cases] at asked
  obtain ⟨expected, told, rfl⟩ := List.mem_map.mp asked
  rw [Option.mem_toList] at told
  refine ⟨expected, ?_, fault.cause.filled_expected expected told⟩
  rw [Diagnostic.var?, Fault.diagnostic, Option.mem_def.mp told]
  rfl

/-- No placeholder is left in a diagnostic of the standard catalog, and where something was missing
it says what was expected. -/
theorem Catalog.parse_filled {file source : String} {d : Diagnostic}
    (h : standard.parse file source = .rejected d) :
    (∀ text ∈ [d.tech, d.meow, d.suggestion, d.sample], Template.Filled text.toList) ∧
      (d.code.text = "E102" ∨ d.code.text = "E104" →
        ∃ expected, d.var? "expected" = some expected) := by
  obtain ⟨fault, definition, -, found, rfl⟩ := verdict_rejected h
  have told := fault.diagnostic_vars definition file (Lines.ofText source)
  constructor
  · have asked := standard_asks fault.cause.text_mem found
    change ∀ text ∈ definition.templates.map (Diagnostic.render _), _
    rw [List.forall_mem_map]
    intro template member
    rw [Diagnostic.render, Template.substitute, String.toList_ofList]
    exact (asked template member).filled told
  · intro missing
    have same : definition.code = fault.cause.code := get?_code found
    have asked : "expected" ∈ fault.cause.code.asked := by
      have code : definition.code = .missingDelimiter ∨ definition.code = .missingElement :=
        missing.imp (fun text => Code.text_injective (text.trans (by decide)))
          fun text => Code.text_injective (text.trans (by decide))
      rw [← same, Code.asked, if_pos code]
      exact List.mem_singleton_self _
    obtain ⟨value, var, -⟩ := told _ asked
    exact ⟨value, var⟩

theorem Catalog.parse_filled_colon :
    ∃ d, standard.parse "chat.miaou" "miaou\nsi x\nmeow" = .rejected d ∧ d.code.text = "E104" ∧
      Template.Filled d.tech.toList ∧ ∃ expected, d.var? "expected" = some expected := by
  have refused : Miaou.parse "miaou\nsi x\nmeow" =
      .error ⟨.missingElement .colon, ⟨2, 5⟩, ""⟩ := eq_error_of_map (by decide +kernel)
  obtain ⟨definition, found, rejected⟩ := standard_wordsScripts.verdict _
  rw [← refused] at rejected
  obtain ⟨filled, told⟩ := parse_filled rejected
  have code := congrArg Code.text (get?_code found)
  exact ⟨_, rejected, code, filled _ List.mem_cons_self, told (.inr code)⟩

end Miaou
