import Miaou.CommandLine.Run
import Miaou.Proofs.Diagnostic.Wording

/-!
One verdict for all commands that look at a script. A command reads the file it names, asks for
the tokens or the program of the text, and succeeds exactly when these exist. The options shape
what is written and decide nothing: a refusal is worded from the fault alone, in one way for all
commands, so two commands that meet the same fault say the same. Of the libraries nothing is asked
but that a document can always be encoded.
-/

namespace Miaou.CommandLine

namespace Act

variable {α β : Type}

@[simp] theorem pure_bind (a : α) (f : α → Act β) : (pure a >>= f : Act β) = f a := by
  change Act.bind (Act.pure a) f = f a
  simp [Act.bind, Act.pure]

theorem bind_of_error {m : Act α} {stop : Stop} (h : m.result = .error stop) (f : α → Act β) :
    m >>= f = ⟨m.out, m.err, .error stop⟩ := by
  change Act.bind m f = _
  simp only [Act.bind, h]

def Tells (m : Act Unit) : Prop := m.result = .ok () ∧ m.err = ""

theorem tells_pure : Tells (pure ()) := ⟨rfl, rfl⟩

theorem tells_print (text : String) : Tells (print text) := ⟨rfl, rfl⟩

theorem Tells.outcome {m : Act Unit} (h : m.Tells) (quiet : Bool) :
    m.outcome quiet = ⟨0, m.out, ""⟩ := by
  simp only [Act.outcome, h.1, h.2]

/-- An act that fails before anything is printed; if it is to be quiet, it says nothing. -/
structure Refuses (quiet : Bool) (m : Act α) : Prop where
  out : m.out = ""
  err : quiet = true → m.err = ""
  fails : ∃ failure, m.result = .error (.failed failure)

theorem Refuses.outcome {quiet : Bool} {m : Act Unit} (h : m.Refuses quiet) :
    (m.outcome quiet).status = 1 ∧ (m.outcome quiet).out = "" ∧
      (quiet = true → (m.outcome quiet).err = "") := by
  obtain ⟨failure, fails⟩ := h.fails
  simp only [Act.outcome, fails]
  refine ⟨trivial, h.out, fun silent => ?_⟩
  rw [h.err silent, if_pos silent, String.append_empty]

end Act

variable {lib : Libraries} {host : Host} {options : Options} {file source : String}

/-- What a rejected script comes to: the diagnostic is told as far as it goes, unless the program is
to be quiet. -/
theorem reject_eq (α : Type) (source : Option String) (d : Diagnostic) :
    (reject lib host options source d : Act α) =
      if options.quiet then ⟨"", "", .error (.failed (.rejected d.code))⟩
      else
        let w := shown lib host options source d
        ⟨"", w.text, .error (.failed ((w.failure.map .unwritten).getD (.rejected d.code)))⟩ := by
  rw [reject]
  split
  · rfl
  · change Act.bind (Act.say _) _ = _
    simp only [Act.bind, Act.say]
    cases (shown lib host options source d).failure with
    | none => simp [Act.fail, Act.stop]
    | some reason => rfl

theorem reject_refuses (α : Type) (source : Option String) (d : Diagnostic) :
    (reject lib host options source d : Act α).Refuses options.quiet := by
  rw [reject_eq]
  split
  · exact ⟨rfl, fun _ => rfl, _, rfl⟩
  · rename_i loud
    exact ⟨rfl, fun quiet => absurd quiet loud, _, rfl⟩

theorem reject_bind {α : Type} (source : Option String) (d : Diagnostic) (f : α → Act Unit) :
    reject lib host options source d >>= f = reject lib host options source d := by
  rw [reject_eq, reject_eq]
  split <;> rw [Act.bind_of_error rfl]

/-! Answers -/

/-- An outcome answers a reading: it is a success if there is a result, and the rejection of the
fault if there is none. -/
def Answers {α : Type} (lib : Libraries) (host : Host) (options : Options) (file source : String)
    (outcome : Outcome) : Except Fault α → Prop
  | .ok _ => outcome.status = 0 ∧ outcome.err = ""
  | .error fault => ∃ definition, Catalog.standard.get? fault.cause.code = some definition ∧
      outcome = (reject lib host options (some source)
        (fault.diagnostic definition file (Lines.ofText source))).outcome options.quiet

namespace Answers

variable {α β : Type} {outcome outcome' : Outcome} {reading : Except Fault α}

theorem status_eq_zero (h : Answers lib host options file source outcome reading) :
    outcome.status = 0 ↔ ∃ value, reading = .ok value := by
  cases reading with
  | ok value => exact ⟨fun _ => ⟨value, rfl⟩, fun _ => h.1⟩
  | error fault =>
    obtain ⟨definition, -, rfl⟩ := h
    rw [(reject_refuses Unit _ _).outcome.1]
    exact ⟨nofun, nofun⟩

theorem out_eq_empty (h : Answers lib host options file source outcome reading)
    (fails : outcome.status ≠ 0) : outcome.out = "" := by
  cases reading with
  | ok value => exact absurd h.1 fails
  | error fault =>
    obtain ⟨definition, -, rfl⟩ := h
    exact (reject_refuses Unit _ _).outcome.2.1

theorem err_eq_empty (h : Answers lib host options file source outcome reading)
    (quiet : options.quiet = true) : outcome.err = "" := by
  cases reading with
  | ok value => exact h.2
  | error fault =>
    obtain ⟨definition, -, rfl⟩ := h
    exact (reject_refuses Unit _ _).outcome.2.2 quiet

theorem err_eq {reading' : Except Fault β}
    (h : Answers lib host options file source outcome reading)
    (h' : Answers lib host options file source outcome' reading')
    (same : ∀ fault, reading = .error fault ↔ reading' = .error fault) :
    outcome.err = outcome'.err := by
  cases reading with
  | ok value =>
    cases reading' with
    | ok value' => rw [h.2, h'.2]
    | error fault => cases (same fault).mpr rfl
  | error fault =>
    cases (same fault).mp rfl
    obtain ⟨definition, found, rfl⟩ := h
    obtain ⟨definition', found', rfl⟩ := h'
    cases found.symm.trans found'
    rfl

end Answers

theorem withScript_answers {α : Type} {reading : Except Fault α} {examine : String → Verdict α}
    {accept : α → Act Unit} (readable : host.read file = .ok source)
    (examines : examine source = Catalog.standard.verdict file (Lines.ofText source) reading)
    (tells : ∀ value, (accept value).Tells) :
    Answers lib host options file source
      ((withScript lib host options file examine accept).outcome options.quiet) reading := by
  simp only [withScript, load, readable, Act.pure_bind, examines]
  cases reading with
  | ok value =>
    simp only [Catalog.verdict, settle, Act.pure_bind, (tells value).outcome]
    exact ⟨rfl, rfl⟩
  | error fault =>
    obtain ⟨definition, found, rejected⟩ :=
      @Catalog.WordsScripts.verdict α _ file (Lines.ofText source)
        Catalog.standard_wordsScripts fault
    refine ⟨definition, found, ?_⟩
    rw [rejected, settle, reject_bind]

section

variable (encodes : ∀ json, (lib.encode json).failure = none)

include encodes in
theorem printJson_tells (json : Json) : (printJson lib json).Tells := by
  rw [printJson]
  split
  · exact Act.tells_print _
  · rename_i reason written
    cases (encodes json).symm.trans (congrArg Written.failure written)

include encodes in
theorem check_answers (readable : host.read file = .ok source) :
    Answers lib host options file source (perform lib host options (.check file))
      (Miaou.parse source) := by
  refine withScript_answers readable rfl fun p => ?_
  rw [approve]
  split
  · exact Act.tells_pure
  split
  · exact printJson_tells encodes _
  · exact Act.tells_print _

include encodes in
theorem ast_answers (readable : host.read file = .ok source) :
    Answers lib host options file source (perform lib host options (.ast file))
      (Miaou.parse source) := by
  refine withScript_answers readable rfl fun p => ?_
  rw [printProgram]
  split
  · exact printJson_tells encodes _
  · exact Act.tells_print _

include encodes in
theorem tokens_answers (readable : host.read file = .ok source) :
    Answers lib host options file source (perform lib host options (.tokens file))
      (Miaou.tokenize source) := by
  refine withScript_answers readable rfl fun ts => ?_
  rw [printTokens]
  split
  · exact printJson_tells encodes _
  · exact Act.tells_print _

end

/-- Three commands over a file that can be read, each with options of its own. Showing the tokens
succeeds exactly when there are tokens, the other two exactly when there is a program; a command
that fails prints nothing, says the same as the other commands that fail over the file with its
options, and says nothing if it is to be quiet. -/
theorem perform_verdict (encodes : ∀ json, (lib.encode json).failure = none)
    (readable : host.read file = .ok source) (o o' o'' : Options) :
    let check := perform lib host o (.check file)
    let ast := perform lib host o' (.ast file)
    let tokens := perform lib host o'' (.tokens file)
    (check.status = 0 ↔ ∃ p, Miaou.parse source = .ok p) ∧
      (ast.status = 0 ↔ ∃ p, Miaou.parse source = .ok p) ∧
      (tokens.status = 0 ↔ ∃ ts, Miaou.tokenize source = .ok ts) ∧
      (tokens.status ≠ 0 → check.status ≠ 0 ∧ ast.status ≠ 0) ∧
      (check.status ≠ 0 → check.out = "") ∧ (ast.status ≠ 0 → ast.out = "") ∧
      (tokens.status ≠ 0 → tokens.out = "") ∧
      (o = o' → check.err = ast.err) ∧
      (tokens.status ≠ 0 →
        (o = o'' → check.err = tokens.err) ∧ (o' = o'' → ast.err = tokens.err)) ∧
      (o.quiet = true → check.err = "") ∧ (o'.quiet = true → ast.err = "") ∧
      (o''.quiet = true → tokens.err = "") := by
  intro check ast tokens
  have checked : Answers lib host o file source check (Miaou.parse source) :=
    check_answers encodes readable
  have shown : Answers lib host o' file source ast (Miaou.parse source) :=
    ast_answers encodes readable
  have listed : Answers lib host o'' file source tokens (Miaou.tokenize source) :=
    tokens_answers encodes readable
  have unread (fails : tokens.status ≠ 0) :
      ∃ fault, Miaou.tokenize source = .error fault ∧ Miaou.parse source = .error fault := by
    cases tokenized : Miaou.tokenize source with
    | ok ts => exact absurd (listed.status_eq_zero.mpr ⟨ts, tokenized⟩) fails
    | error fault => exact ⟨fault, rfl, by rw [Miaou.parse, tokenized]; rfl⟩
  refine ⟨checked.status_eq_zero, shown.status_eq_zero, listed.status_eq_zero, ?_,
    checked.out_eq_empty, shown.out_eq_empty, listed.out_eq_empty, ?_, ?_,
    checked.err_eq_empty, shown.err_eq_empty, listed.err_eq_empty⟩
  · intro fails
    obtain ⟨fault, -, unparsed⟩ := unread fails
    constructor
    · intro success
      obtain ⟨p, parsed⟩ := checked.status_eq_zero.mp success
      cases unparsed.symm.trans parsed
    · intro success
      obtain ⟨p, parsed⟩ := shown.status_eq_zero.mp success
      cases unparsed.symm.trans parsed
  · rintro rfl
    exact checked.err_eq shown fun _ => Iff.rfl
  · intro fails
    obtain ⟨fault, untokenized, unparsed⟩ := unread fails
    have same (other : Fault) :
        Miaou.parse source = .error other ↔ Miaou.tokenize source = .error other := by
      rw [untokenized, unparsed]
      exact Iff.of_eq (by simp)
    constructor
    · rintro rfl
      exact checked.err_eq listed same
    · rintro rfl
      exact shown.err_eq listed same

/-- Of a text with a string that is never closed, two commands say the same and the third says
nothing. -/
theorem perform_verdict_unclosed :
    let lib := Bundled.libraries
    let host : Host := ⟨fun _ => .ok "miaou\n\"a", false⟩
    let loud : Options := ⟨.full, Diagnostic.usualRadius, false⟩
    (∀ json, (lib.encode json).failure = none) ∧
      host.read "chat.miaou" = .ok "miaou\n\"a" ∧
      (perform lib host loud (.tokens "chat.miaou")).status ≠ 0 ∧
      (perform lib host loud (.check "chat.miaou")).err =
        (perform lib host loud (.tokens "chat.miaou")).err ∧
      (perform lib host ⟨.json, 0, true⟩ (.ast "chat.miaou")).err = "" := by
  intro lib host loud
  have encodes : ∀ json, (lib.encode json).failure = none := fun _ => rfl
  have readable : host.read "chat.miaou" = .ok "miaou\n\"a" := rfl
  have unclosed : ∀ ts, Miaou.tokenize "miaou\n\"a" ≠ .ok ts := by
    have refused : Miaou.tokenize "miaou\n\"a" = .error ⟨.unclosedString, ⟨2, 1⟩, "\""⟩ := by
      decide +kernel
    intro ts accepted
    rw [refused] at accepted
    cases accepted
  obtain ⟨-, -, verdict, -, -, -, -, -, same, -, silent, -⟩ :=
    perform_verdict encodes readable loud ⟨.json, 0, true⟩ loud
  have fails : (perform lib host loud (.tokens "chat.miaou")).status ≠ 0 := fun success =>
    (verdict.mp success).elim unclosed
  exact ⟨encodes, readable, fails, (same fails).1 rfl, silent rfl⟩

end Miaou.CommandLine
