import Miaou.Proofs.Grammar.Lines
import Miaou.Proofs.Grammar.Outline

/-!
Printed blocks. The line that governs a block is read up to its colon and the block behind it as
the statements it is printed from. Together with the lines this gives every statement back that is
written in names, faithful expressions and blocks that are not empty.
-/

namespace Miaou

namespace Grammar

open Piece Layout

def Fills (depth : Nat) (body : List Stmt) : Prop := body ≠ [] ∧ ∃ hs, Body (depth + 1) body hs

/-! Lines that govern a block -/

def condition (t : Token) (gs : List Token) : List Token := t :: (gs ++ [.sign .colon])

section Condition

variable {e : Expr} {t : Token} {gs : List Token} (tokens : Tokens e t gs)

include tokens

theorem stretch_condition {cs : List Char} {u : Token} (word : Stretch cs [u]) :
    Stretch (cs ++ ' ' :: (e.text.toList ++ [':'])) (u :: condition t gs) := by
  have whole := (word.space tokens.stretch).colon
  simpa [condition] using whole

theorem read_condition (rest : List Token) :
    outcome (expression .lowest (condition t gs ++ rest)) =
      .ok (e.unplaced, .sign .colon :: rest) := by
  have shape : condition t gs ++ rest = t :: (gs ++ .sign .colon :: rest) := by simp [condition]
  rw [shape]
  exact tokens.read .lowest (halts_of_none rfl 9 rest)

end Condition

theorem outcome_colon (rest : List Token) :
    outcome (expectColon (.sign .colon :: rest)) = .ok (.sign .colon, rest) :=
  outcome_expect _ rfl rest

variable {depth : Nat} {body : List Stmt} {hs : List Token}

theorem printed_while {pos : Position} {e : Expr} (faithful : Faithful e)
    (inner : Fills depth body) :
    ∃ gs, Printed depth ((Stmt.whileLoop pos e body).text depth).toList gs
      (Stmt.whileLoop pos e body).unplaced := by
  obtain ⟨t, gs, tokens⟩ := faithful.tokens
  obtain ⟨ne, hs, inner⟩ := inner
  have word : Stretch "tant que".toList [.word (.keyword .tantQue) "tant que"] :=
    @stretch_compound "tant".toList "que".toList _ _ _ (by decide) (by decide) rfl (by decide) rfl
  have governed : Governed depth ("tant que " ++ e.text ++ ":")
      (.word (.keyword .tantQue) "tant que" :: condition t gs) body hs := by
    refine ⟨?_, ne, inner⟩
    simpa [String.toList_append] using stretch_condition tokens word
  refine ⟨_, printed_block governed rfl fun rest => ?_⟩
  refine (outcome_while rfl _).trans ((bind_of_ok (read_condition tokens _) _).trans ?_)
  refine (bind_of_ok (outcome_colon _) _).trans ?_
  exact bind_of_ok (governed.again rest) _

theorem printed_repeat {pos : Position} {e : Expr} (faithful : Faithful e)
    (inner : Fills depth body) :
    ∃ gs, Printed depth ((Stmt.repeatLoop pos e body).text depth).toList gs
      (Stmt.repeatLoop pos e body).unplaced := by
  obtain ⟨t, gs, tokens⟩ := faithful.tokens
  obtain ⟨ne, hs, inner⟩ := inner
  have word : Stretch "repeter".toList [.word (.keyword .repeter) "repeter"] :=
    stretch_keyword (by decide) (by decide) (by decide)
  have word' : Stretch "fois".toList [.word (.keyword .fois) "fois"] :=
    stretch_keyword (by decide) (by decide) (by decide)
  have governed : Governed depth ("repeter " ++ e.text ++ " fois:")
      (.word (.keyword .repeter) "repeter" ::
        t :: (gs ++ [.word (.keyword .fois) "fois", .sign .colon])) body hs := by
    refine ⟨?_, ne, inner⟩
    simpa [String.toList_append] using ((word.space tokens.stretch).space word').colon
  refine ⟨_, printed_block governed rfl fun rest => ?_⟩
  have shape : t :: (gs ++ [.word (.keyword .fois) "fois", .sign .colon]) ++
      (blockTokens hs ++ rest) = t :: (gs ++ .word (.keyword .fois) "fois" :: .sign .colon ::
        (blockTokens hs ++ rest)) := by simp
  rw [shape]
  refine (outcome_repeat rfl _).trans ((bind_of_ok (tokens.read .lowest ?_) _).trans ?_)
  · exact halts_of_none rfl 9 _
  refine (bind_of_ok (outcome_colon _) _).trans ?_
  exact bind_of_ok (governed.again rest) _

theorem printed_forEach {pos : Position} {name : String} {e : Expr}
    (named : Named .identifier name) (faithful : Faithful e)
    (inner : Fills depth body) :
    ∃ gs, Printed depth ((Stmt.forEach pos name e body).text depth).toList gs
      (Stmt.forEach pos name e body).unplaced := by
  obtain ⟨t, gs, tokens⟩ := faithful.tokens
  obtain ⟨ne, hs, inner⟩ := inner
  have word : Stretch "pour chaque".toList [.word (.keyword .pourChaque) "pour chaque"] :=
    @stretch_compound "pour".toList "chaque".toList _ _ _ (by decide) (by decide) rfl (by decide)
      rfl
  have word' : Stretch "dans".toList [.word (.keyword .dans) "dans"] :=
    stretch_keyword (by decide) (by decide) (by decide)
  have governed : Governed depth ("pour chaque " ++ name ++ " dans " ++ e.text ++ ":")
      (.word (.keyword .pourChaque) "pour chaque" :: .word .identifier name ::
        .word (.keyword .dans) "dans" :: condition t gs) body hs := by
    refine ⟨?_, ne, inner⟩
    have whole := (word.space (stretch_name named)).space (stretch_condition tokens word')
    simpa [String.toList_append] using whole
  refine ⟨_, printed_block governed rfl fun rest => ?_⟩
  refine (outcome_forEach rfl _).trans ((bind_of_ok (outcome_expect _ rfl _) _).trans ?_)
  refine (bind_of_ok (outcome_expect _ rfl _) _).trans ?_
  refine (bind_of_ok (read_condition tokens _) _).trans ((bind_of_ok (outcome_colon _) _).trans ?_)
  exact bind_of_ok (governed.again rest) _

/-! Definitions -/

structure Names (names : List String) (gs : List Token) : Prop where
  yields : ∀ rest, Yields ((Text.separated ", " names).toList ++ [')']) gs rest
  read : ∀ rest, outcome (parameters (gs ++ rest)) = .ok (names, rest)

theorem names_of_named {names : List String} (h : ∀ w ∈ names, Named .identifier w) :
    ∃ gs, Names names gs := by
  have close (rest : List Char) : Yields [')'] [.sign .rightParen] rest :=
    yields_symbol .rightParen fun c _ => rfl
  induction names with
  | nil => exact ⟨_, close, fun rest => outcome_parameters_none rfl rest⟩
  | cons w names ih =>
    rw [List.forall_mem_cons] at h
    obtain ⟨gs, more⟩ := ih h.2
    cases names with
    | nil =>
      refine ⟨[.word .identifier w, .sign .rightParen], fun rest => ?_, fun rest => ?_⟩
      · exact yields_append (h.1.stands.yields _ (ends_cons (by decide) (by decide) _)) (close rest)
      · exact outcome_parameters_last rfl rfl rest
    | cons w' names =>
      refine ⟨.word .identifier w :: .sign .comma :: gs, fun rest => ?_, fun rest => ?_⟩
      · have text : (Text.separated ", " (w :: w' :: names)).toList ++ [')'] =
            w.toList ++ (Symbol.comma.text.toList ++
              ' ' :: ((Text.separated ", " (w' :: names)).toList ++ [')'])) := by
          simp [Text.separated, String.toList_append, Symbol.text]
        rw [text]
        refine yields_append (h.1.stands.yields _ (ends_cons (by decide) (by decide) _)) ?_
        exact yields_mark .comma (fun _ => rfl) (yields_space (more.yields rest))
      · exact (outcome_parameters rfl rfl _).trans (bind_of_ok (more.read rest) _)

theorem printed_define {pos : Position} {name : String} {names : List String}
    (named : Named .identifier name) (inside : ∀ w ∈ names, Named .identifier w)
    (inner : Fills depth body) :
    ∃ gs, Printed depth ((Stmt.define pos name names body).text depth).toList gs
      (Stmt.define pos name names body).unplaced := by
  obtain ⟨gs, parameters⟩ := names_of_named inside
  obtain ⟨ne, hs, inner⟩ := inner
  have word : Stretch "fonction".toList [.word (.keyword .fonction) "fonction"] :=
    stretch_keyword (by decide) (by decide) (by decide)
  have governed : Governed depth ("fonction " ++ name ++ "(" ++ Text.separated ", " names ++ "):")
      (.word (.keyword .fonction) "fonction" :: .word .identifier name :: .sign .leftParen ::
        (gs ++ [.sign .colon])) body hs := by
    refine ⟨?_, ne, inner⟩
    have whole := ((word.space (stretch_name named)).append
      (fun rest _ => yields_mark .leftParen (fun _ => rfl) (parameters.yields rest))
      fun _ _ => ends_paren _).colon
    simpa [String.toList_append, Symbol.text] using whole
  refine ⟨_, printed_block governed rfl fun rest => ?_⟩
  have shape : gs ++ [.sign .colon] ++ (blockTokens hs ++ rest) =
      gs ++ .sign .colon :: (blockTokens hs ++ rest) := by simp
  rw [List.cons_append, List.cons_append, shape]
  refine (outcome_define rfl _).trans ((bind_of_ok (outcome_expect _ rfl _) _).trans ?_)
  refine (bind_of_ok (outcome_expect _ rfl _) _).trans ?_
  refine (bind_of_ok (parameters.read _) _).trans ((bind_of_ok (outcome_colon _) _).trans ?_)
  exact bind_of_ok (governed.again rest) _

/-! Statements of several blocks -/

theorem printed_attempt {pos : Position} {handler : List Stmt} (inner : Fills depth body)
    (inner' : Fills depth handler) :
    ∃ gs, Printed depth ((Stmt.attempt pos body handler).text depth).toList gs
      (Stmt.attempt pos body handler).unplaced := by
  obtain ⟨ne, hs, inner⟩ := inner
  obtain ⟨ne', is, inner'⟩ := inner'
  have word : Stretch "essayer".toList [.word (.keyword .essayer) "essayer"] :=
    stretch_keyword (by decide) (by decide) (by decide)
  have sauf : Stretch "sauf".toList [.word (.keyword .sauf) "sauf"] :=
    stretch_keyword (by decide) (by decide) (by decide)
  have erreur : Stretch "erreur".toList [.word (.keyword .erreur) "erreur"] :=
    stretch_keyword (by decide) (by decide) (by decide)
  have first : Governed depth "essayer:" [.word (.keyword .essayer) "essayer", .sign .colon]
      body hs := ⟨word.colon, ne, inner⟩
  have second : Governed depth "sauf erreur:" [.word (.keyword .sauf) "sauf",
      .word (.keyword .erreur) "erreur", .sign .colon] handler is :=
    ⟨(sauf.space erreur).colon, ne', inner'⟩
  have more := second.reads
  rw [← String.toList_append] at more
  rw [Stmt.text, String.toList_append]
  refine ⟨_, printed_blocks first more rfl fun rest _ _ => ?_⟩
  rw [List.append_assoc]
  refine (outcome_attempt rfl _).trans ((bind_of_ok (outcome_colon _) _).trans ?_)
  refine (bind_of_ok (first.again _) _).trans ((bind_of_ok (outcome_expect _ rfl _) _).trans ?_)
  refine (bind_of_ok (outcome_colon _) _).trans ?_
  exact bind_of_ok (second.again rest) _

structure Further (depth : Nat) (clauses : List (Expr × List Stmt)) (gs : List Token) : Prop where
  reads : Reads depth (Stmt.clausesText depth clauses).toList gs
  again : ∀ rest, Lacks (.keyword .sinonSi) rest → outcome (Grammar.clauses (gs ++ rest)) =
    .ok (Stmt.relocateClauses (fun _ => .start) clauses, rest)

theorem further_of_bodies {clauses : List (Expr × List Stmt)}
    (faithful : ∀ clause ∈ clauses, Faithful clause.1)
    (inner : ∀ clause ∈ clauses, Fills depth clause.2) :
    ∃ gs, Further depth clauses gs := by
  induction clauses with
  | nil => exact ⟨[], reads_nil depth, fun rest lacks => outcome_clauses_end lacks⟩
  | cons clause clauses ih =>
    obtain ⟨e, body⟩ := clause
    rw [List.forall_mem_cons] at faithful inner
    obtain ⟨condition, faithful⟩ := faithful
    obtain ⟨⟨ne, hs, body'⟩, inner⟩ := inner
    obtain ⟨t, gs, tokens⟩ := condition.tokens
    obtain ⟨is, more⟩ := ih faithful inner
    have word : Stretch "sinon si".toList [.word (.keyword .sinonSi) "sinon si"] :=
      @stretch_compound "sinon".toList "si".toList _ _ _ (by decide) (by decide) rfl (by decide) rfl
    have governed : Governed depth ("sinon si " ++ e.text ++ ":")
        (.word (.keyword .sinonSi) "sinon si" :: Grammar.condition t gs) body hs := by
      refine ⟨?_, ne, body'⟩
      simpa [String.toList_append] using stretch_condition tokens word
    refine ⟨.word (.keyword .sinonSi) "sinon si" :: Grammar.condition t gs ++ blockTokens hs ++ is,
      ?_, fun rest lacks => ?_⟩
    · rw [Stmt.clausesText, String.toList_append, String.toList_append]
      exact governed.reads.append more.reads
    · rw [List.append_assoc, List.append_assoc]
      refine (outcome_clauses rfl _).trans ((bind_of_ok (read_condition tokens _) _).trans ?_)
      refine (bind_of_ok (outcome_colon _) _).trans ((bind_of_ok (governed.again _) _).trans ?_)
      exact bind_of_ok (more.again rest lacks) _

structure Otherwise (depth : Nat) (last : Option (List Stmt)) (gs : List Token) : Prop where
  reads : Reads depth (Stmt.otherwiseText depth last).toList gs
  apart : ∀ rest, Lacks (.keyword .sinonSi) rest → Lacks (.keyword .sinonSi) (gs ++ rest)
  again : ∀ rest, Lacks (.keyword .sinon) rest → outcome (otherwise (gs ++ rest)) =
    .ok (Stmt.relocateOtherwise (fun _ => .start) last, rest)

theorem stretch_else :
    Stretch "sinon:".toList [.word (.keyword .sinon) "sinon", .sign .colon] := by
  have word (rest : List Char) :
      Yields "sinon".toList [.word (.keyword .sinon) "sinon"] (':' :: rest) :=
    yields_reserved (by decide) rfl (by decide) rfl (Text.stops_cons.mpr (by decide))
  exact ⟨⟨'s', rfl, by unfold Begins; decide⟩, fun rest _ =>
    yields_append (word rest) (yields_symbol .colon fun _ _ => rfl)⟩

theorem otherwise_of_body {last : Option (List Stmt)} (inner : ∀ ss ∈ last, Fills depth ss) :
    ∃ gs, Otherwise depth last gs := by
  cases last with
  | none =>
    exact ⟨[], reads_nil depth, fun _ lacks => lacks, fun rest lacks => outcome_otherwise_end lacks⟩
  | some ss =>
    obtain ⟨ne, hs, inner⟩ := inner ss rfl
    have governed : Governed depth "sinon:" [.word (.keyword .sinon) "sinon", .sign .colon] ss hs :=
      ⟨stretch_else, ne, inner⟩
    refine ⟨[.word (.keyword .sinon) "sinon", .sign .colon] ++ blockTokens hs, ?_,
      fun rest _ => lacks_cons.mpr (by decide), fun rest _ => ?_⟩
    · rw [Stmt.otherwiseText, String.toList_append]
      exact governed.reads
    · rw [List.append_assoc]
      refine (outcome_otherwise rfl _).trans ((bind_of_ok (outcome_colon _) _).trans ?_)
      exact bind_of_ok (governed.again rest) _

theorem printed_branch {pos : Position} {e : Expr} {clauses : List (Expr × List Stmt)}
    {last : Option (List Stmt)} {is js : List Token} (faithful : Faithful e)
    (inner : Fills depth body) (further : Further depth clauses is)
    (ending : Otherwise depth last js) :
    ∃ gs, Printed depth ((Stmt.branch pos e body clauses last).text depth).toList gs
      (Stmt.branch pos e body clauses last).unplaced := by
  obtain ⟨t, gs, tokens⟩ := faithful.tokens
  obtain ⟨ne, hs, inner⟩ := inner
  have word : Stretch "si".toList [.word (.keyword .si) "si"] :=
    stretch_keyword (by decide) (by decide) (by decide)
  have governed : Governed depth ("si " ++ e.text ++ ":")
      (.word (.keyword .si) "si" :: condition t gs) body hs := by
    refine ⟨?_, ne, inner⟩
    simpa [String.toList_append] using stretch_condition tokens word
  rw [Stmt.text, String.toList_append, String.toList_append, List.append_assoc]
  refine ⟨_, printed_blocks governed (further.reads.append ending.reads) rfl
    fun rest noClause noElse => ?_⟩
  rw [List.append_assoc]
  refine (outcome_branch rfl _).trans ((bind_of_ok (read_condition tokens _) _).trans ?_)
  refine (bind_of_ok (outcome_colon _) _).trans ((bind_of_ok (governed.again _) _).trans ?_)
  refine (bind_of_ok (further.again _ (ending.apart rest noClause)) _).trans ?_
  exact bind_of_ok (ending.again rest noElse) _

/-! All statements -/

/-- Statements written in names and faithful expressions. -/
inductive Written : Stmt → Prop where
  | assign {pos : Position} {name : String} {value : Expr} (named : Named .identifier name)
      (faithful : Faithful value) : Written (.assign pos name value)
  | assignIndex {pos place : Position} {object index value : Expr}
      (target : Indexed (.item place object index)) (faithful : Faithful value) :
      Written (.assignIndex pos object index value)
  | branch {pos : Position} {condition : Expr} {body : List Stmt}
      {clauses : List (Expr × List Stmt)} {otherwise : Option (List Stmt)}
      (faithful : Faithful condition) (inner : ∀ s ∈ body, Written s)
      (conditions : ∀ clause ∈ clauses, Faithful clause.1)
      (inners : ∀ clause ∈ clauses, ∀ s ∈ clause.2, Written s)
      (last : ∀ body ∈ otherwise, ∀ s ∈ body, Written s) :
      Written (.branch pos condition body clauses otherwise)
  | whileLoop {pos : Position} {condition : Expr} {body : List Stmt}
      (faithful : Faithful condition) (inner : ∀ s ∈ body, Written s) :
      Written (.whileLoop pos condition body)
  | repeatLoop {pos : Position} {count : Expr} {body : List Stmt}
      (faithful : Faithful count) (inner : ∀ s ∈ body, Written s) :
      Written (.repeatLoop pos count body)
  | forEach {pos : Position} {name : String} {items : Expr} {body : List Stmt}
      (named : Named .identifier name) (faithful : Faithful items)
      (inner : ∀ s ∈ body, Written s) : Written (.forEach pos name items body)
  | define {pos : Position} {name : String} {parameters : List String} {body : List Stmt}
      (named : Named .identifier name) (names : ∀ p ∈ parameters, Named .identifier p)
      (inner : ∀ s ∈ body, Written s) : Written (.define pos name parameters body)
  | giveBack {pos : Position} {value : Option Expr} (faithful : ∀ e ∈ value, Faithful e) :
      Written (.giveBack pos value)
  | attempt {pos : Position} {body handler : List Stmt} (inner : ∀ s ∈ body, Written s)
      (inner' : ∀ s ∈ handler, Written s) : Written (.attempt pos body handler)
  | importModule {pos : Position} {name : String} (named : Named .identifier name) :
      Written (.importModule pos name)
  | print {pos place : Position} {given : List Expr} (inner : ∀ e ∈ given, Faithful e) :
      Written (.expression pos (.call place "ecrire" given))
  | expression {pos : Position} {e : Expr} (faithful : Faithful e) : Written (.expression pos e)

open Outline

/-- No value behind the first one of a printing statement is printed with a parenthesis in
front. -/
def Apart (entries : List Entry) : Prop :=
  ∀ depth pos place given,
    ⟨depth, .statement (.expression pos (.call place "ecrire" given))⟩ ∈ entries →
      ∀ e ∈ given.tail, '(' ∉ e.text.toList.head?

def isApart : Entry → Bool
  | ⟨_, .statement (.expression _ (.call _ function given))⟩ =>
    function ≠ "ecrire" || given.tail.all fun e => '(' ∉ e.text.toList.head?
  | _ => true

theorem apart_iff (entries : List Entry) :
    Apart entries ↔ ∀ e ∈ entries, isApart e = true := by
  constructor
  · rintro h ⟨depth, s | _ | _⟩ member
    · unfold isApart
      split
      · rename_i pos place function given same
        by_cases prints : function = "ecrire"
        · subst prints
          cases same
          simpa using h _ _ _ _ member
        · simp [prints]
      · rfl
    · rfl
    · rfl
  · intro h depth pos place given member
    simpa [isApart] using h _ member

instance (entries : List Entry) : Decidable (Apart entries) :=
  decidable_of_iff' _ (apart_iff entries)

/-- What is printed so that it can be read again. -/
structure Legible (entries : List Entry) : Prop where
  apart : Apart entries
  inhabited : ∀ depth body, ⟨depth, .block body⟩ ∈ entries → body ≠ []

namespace Legible

variable {entries entries' : List Entry}

theorem part (h : Legible entries) (within : entries' ⊆ entries) : Legible entries' where
  apart depth pos place given member := h.apart depth pos place given (within member)
  inhabited depth body member := h.inhabited depth body (within member)

theorem fills (h : Legible entries) {depth : Nat} {body : List Stmt}
    (within : Stmt.blockOutline depth body ⊆ entries)
    (printed : ∀ s ∈ body, ∀ depth, Legible (s.outline depth) →
      ∃ gs, Printed depth (s.text depth).toList gs s.unplaced) : Fills depth body := by
  refine ⟨h.inhabited depth body (within List.mem_cons_self), ?_⟩
  exact body_of_printed fun s member => printed s member (depth + 1)
    (h.part (List.Subset.trans (Stmt.outline_subset_block depth member) within))

end Legible

/-- The lines of a written statement are read as it. -/
theorem written_printed {s : Stmt} (h : Written s) (depth : Nat)
    (legible : Legible (s.outline depth)) :
    ∃ gs, Printed depth (s.text depth).toList gs s.unplaced := by
  induction h generalizing depth with
  | assign named faithful => exact printed_assign named faithful depth
  | assignIndex target faithful => exact printed_assignIndex target faithful depth
  | @branch pos condition body clauses otherwise faithful inner conditions inners last ih ih'
      ih'' =>
    have whole := legible.part (List.subset_cons_self _ _)
    rw [Stmt.inside_branch] at whole
    have first := whole.part (List.subset_append_left _ _)
    have rest := whole.part (List.subset_append_right _ _)
    have second := rest.part (List.subset_append_left _ _)
    have third := rest.part (List.subset_append_right _ _)
    obtain ⟨is, further⟩ := further_of_bodies conditions fun clause member =>
      second.fills (Stmt.block_subset_clauses depth _ member) (ih' clause member)
    have filled : ∀ body ∈ otherwise, Fills depth body := by
      rintro body ⟨⟩
      exact third.fills (List.subset_cons_self _ _) (ih'' body rfl)
    obtain ⟨js, ending⟩ := otherwise_of_body filled
    exact printed_branch faithful (first.fills (List.Subset.refl _) ih) further ending
  | whileLoop faithful inner ih =>
    exact printed_while faithful (legible.fills (List.subset_cons_self _ _) ih)
  | repeatLoop faithful inner ih =>
    exact printed_repeat faithful (legible.fills (List.subset_cons_self _ _) ih)
  | forEach named faithful inner ih =>
    exact printed_forEach named faithful (legible.fills (List.subset_cons_self _ _) ih)
  | define named names inner ih =>
    exact printed_define named names (legible.fills (List.subset_cons_self _ _) ih)
  | giveBack faithful => exact printed_giveBack faithful depth
  | attempt inner inner' ih ih' =>
    have whole := legible.part (List.subset_cons_self _ _)
    rw [Stmt.inside_attempt] at whole
    have first := whole.part (List.subset_append_left _ _)
    have second := whole.part (List.subset_append_right _ _)
    exact printed_attempt (first.fills (List.Subset.refl _) ih)
      (second.fills (List.Subset.refl _) ih')
  | importModule named => exact printed_import named depth
  | @print pos place given inner =>
    exact printed_print inner (legible.apart depth pos place given List.mem_cons_self) depth
  | expression faithful => exact printed_expression faithful depth

end Grammar

end Miaou
