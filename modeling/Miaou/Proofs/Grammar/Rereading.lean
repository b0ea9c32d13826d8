import Miaou.Proofs.Grammar.Blocks
import Miaou.Proofs.Grammar.Composition

/-!
What is read from a script is written in names and faithful expressions, so its printed lines are
read as it again.
-/

namespace Miaou

namespace Grammar

open Piece

variable {whole : List Token}

/-! Targets of assignments -/

def Phrase.Indexes : Phrase → Prop
  | .accesses object e => Indexed object → Indexed e
  | _ => True

theorem derives_indexed (h : Printable whole) {phrase : Phrase} {ts rest : List Token}
    (derives : Derives phrase ts rest) (behind : Behind whole ts) : phrase.Indexes := by
  induction derives with
  | accessesEnd noCall noItem noPoint => exact id
  | call mark path group more ih ih' =>
    obtain ⟨given, behind⟩ := derives_faithful h group (behind.kind mark (by decide))
    rintro ⟨w, named, object⟩
    exact ih' behind ⟨w, named, spelledFrom_called path object given⟩
  | item mark inner close more ih ih' =>
    obtain ⟨index, behind⟩ := derives_faithful h inner (behind.kind mark (by decide))
    rintro ⟨w, named, object⟩
    exact ih' (behind.kind close (by decide)) ⟨w, named, spelledFrom_item object index.lowest⟩
  | @«attribute» t u object e us rest mark name more ih =>
    obtain ⟨d, -, suffix⟩ := behind
    have named : Named u.kind u.lexeme := h.named (suffix.subset (by simp)) name
    have other : u.kind ≠ .symbol .dot := by
      intro same
      rw [same] at name
      cases name
    rintro ⟨w, first, object⟩
    exact ih ⟨u, other, ((List.suffix_cons _ _).trans (List.suffix_cons _ _)).trans suffix⟩
      ⟨w, first, spelledFrom_attribute object named name⟩
  | _ => trivial

theorem indexed_of_read (h : Printable whole) {name t : Token} {ts us : List Token} {e : Expr}
    (kind : name.kind = .identifier) (mark : t.kind = .symbol .leftBracket)
    (behind : Behind whole (name :: t :: ts))
    (read : outcome (expression .postfixes (name :: t :: ts)) = .ok (e, us)) : Indexed e := by
  have named := h.identifier behind.mem kind
  have next := behind.kind kind (by decide)
  rw [outcome_postfixes] at read
  obtain ⟨⟨object, vs⟩, first, more⟩ := bind_ok read
  rw [outcome_identifier kind] at first
  cases first
  have further : Derives (.accesses (.identifier name.position name.lexeme) e) (t :: ts) us :=
    ExprGoal.derived (.accesses _) _ more
  cases further with
  | accessesEnd noCall noItem noPoint => exact absurd mark (lacks_cons.mp noItem)
  | call mark' => exact absurd (mark.symm.trans mark') (by decide)
  | «attribute» mark' => exact absurd (mark.symm.trans mark') (by decide)
  | item mark' inner close more =>
    obtain ⟨index, behind⟩ := derives_faithful h inner (next.kind mark (by decide))
    obtain ⟨gs, spells⟩ := index.lowest
    refine derives_indexed h more (behind.kind close (by decide))
      ⟨name.lexeme, named, gs ++ [.sign .rightBracket], ?_⟩
    have text (place place' : Position) (index : Expr) :
        (Expr.item place (.identifier place' name.lexeme) index).text.toList =
          name.lexeme.toList ++ '[' :: (index.text.toList ++ [']']) := by
      simp [Expr.text, String.toList_append]
    rw [text]
    exact .item (.name named) spells

/-! What a line gives back -/

theorem Behind.skip {ts : List Token} (h : Behind whole ts) {kind : Kind}
    (other : kind ≠ .symbol .dot) : Behind whole (skip kind ts) := by
  cases ts with
  | nil => exact h
  | cons t rest =>
    rw [Grammar.skip]
    split
    · rename_i same
      exact h.kind same other
    · exact h

theorem Behind.lines {ts : List Token} (h : Behind whole ts) : Behind whole (skipNewlines ts) := by
  induction ts with
  | nil => exact h
  | cons t rest ih =>
    by_cases mark : t.kind = .layout .newline
    · rw [skipNewlines_newline mark]
      exact ih (h.kind mark (by decide))
    · rwa [skipNewlines_lacks (lacks_cons.mpr mark)]

theorem Behind.expect {ts us : List Token} (h : Behind whole ts) {kind : Kind} {cause : Cause}
    {t : Token} (read : outcome (expect kind cause ts) = .ok (t, us))
    (other : kind ≠ .symbol .dot) : Behind whole us := by
  obtain ⟨same, rfl⟩ := outcome_expect_ok read
  exact h.kind same other

section Readers

variable (h : Printable whole) {ts us : List Token} (behind : Behind whole ts)

include h behind

theorem expression_faithful {level : Level} {e : Expr}
    (read : outcome (expression level ts) = .ok (e, us)) : Faithful e ∧ Behind whole us :=
  derives_faithful h (derives_expression.mpr read) behind

theorem name_named {element : Element} {t : Token}
    (read : outcome (expectName element ts) = .ok (t, us)) :
    Named .identifier t.lexeme ∧ Behind whole us := by
  obtain ⟨same, rfl⟩ := outcome_expect_ok read
  exact ⟨h.identifier behind.mem same, behind.kind same (by decide)⟩

theorem line_faithful {es : List Expr} (read : outcome (lineOfExpressions ts) = .ok (es, us)) :
    (∀ e ∈ es, Faithful e) ∧ Behind whole us := by
  induction ts using lineOfExpressions.induct generalizing es with
  | case1 ts ends =>
    rw [outcome_line_end ends] at read
    cases read
    exact ⟨List.forall_mem_nil _, behind⟩
  | case2 ts ends further =>
    rw [outcome_line (by simpa using ends)] at read
    obtain ⟨⟨e, vs⟩, first, read⟩ := bind_ok read
    obtain ⟨⟨es, ws⟩, more, same⟩ := bind_ok read
    cases same
    obtain ⟨faithful, behind⟩ := expression_faithful h behind first
    obtain ⟨inner, behind⟩ := further vs (outcome_rest_lt first) behind more
    exact ⟨List.forall_mem_cons.mpr ⟨faithful, inner⟩, behind⟩

theorem returned_faithful {value : Option Expr}
    (read : outcome (returned ts) = .ok (value, us)) :
    (∀ e ∈ value, Faithful e) ∧ Behind whole us := by
  cases ends : endsLine ts with
  | true =>
    rw [outcome_returned_none ends] at read
    cases read
    exact ⟨by simp, behind⟩
  | false =>
    rw [outcome_returned ends] at read
    obtain ⟨⟨e, vs⟩, inner, same⟩ := bind_ok read
    cases same
    obtain ⟨faithful, behind⟩ := expression_faithful h behind inner
    refine ⟨?_, behind⟩
    rintro e ⟨⟩
    exact faithful

theorem parameters_named {names : List String}
    (read : outcome (parameters ts) = .ok (names, us)) :
    (∀ w ∈ names, Named .identifier w) ∧ Behind whole us := by
  induction ts using parameters.induct generalizing names with
  | case1 =>
    rw [outcome_parameters_unnamed (by simp)] at read
    cases read
  | case2 t rest close =>
    rw [outcome_parameters_none close] at read
    cases read
    exact ⟨List.forall_mem_nil _, behind.kind close (by decide)⟩
  | case3 t _ kind =>
    rw [outcome_parameters_open kind (by simp)] at read
    cases read
  | case4 t _ kind u rest comma ih =>
    have named := h.identifier behind.mem kind
    rw [outcome_parameters kind comma] at read
    obtain ⟨⟨names, vs⟩, more, same⟩ := bind_ok read
    cases same
    obtain ⟨inner, behind⟩ := ih ((behind.kind kind (by decide)).kind comma (by decide)) more
    exact ⟨List.forall_mem_cons.mpr ⟨named, inner⟩, behind⟩
  | case5 t _ kind u rest _ close =>
    have named := h.identifier behind.mem kind
    rw [outcome_parameters_last kind close] at read
    cases read
    refine ⟨List.forall_mem_singleton.mpr named, ?_⟩
    exact (behind.kind kind (by decide)).kind close (by decide)
  | case6 t _ kind u rest comma close =>
    rw [outcome_parameters_open kind (by simpa using ⟨comma, close⟩)] at read
    cases read
  | case7 t rest close kind =>
    rw [outcome_parameters_unnamed (by simpa using ⟨close, kind⟩)] at read
    cases read

end Readers

/-! Statements -/

def Part.Written : Part → Prop
  | .statement s => Grammar.Written s
  | .block ss | .body ss | .script ss => ∀ s ∈ ss, Grammar.Written s
  | .clauses cs =>
    (∀ clause ∈ cs, Faithful clause.1) ∧ ∀ clause ∈ cs, ∀ s ∈ clause.2, Grammar.Written s
  | .otherwise last => ∀ ss ∈ last, ∀ s ∈ ss, Grammar.Written s

theorem composes_written (h : Printable whole) {part : Part} {ts us : List Token}
    (composes : Composes part ts us) (behind : Behind whole ts) :
    part.Written ∧ Behind whole us := by
  induction composes with
  | print word line =>
    obtain ⟨given, behind⟩ := line_faithful h (behind.kind word (by decide)) line
    exact ⟨.print given, behind⟩
  | branch word test mark inner further ending ih ih' ih'' =>
    obtain ⟨condition, behind⟩ := expression_faithful h (behind.kind word (by decide)) test
    obtain ⟨body, behind⟩ := ih ((behind.skip (by decide)).expect mark (by decide))
    obtain ⟨⟨conditions, bodies⟩, behind⟩ := ih' behind
    obtain ⟨last, behind⟩ := ih'' behind
    exact ⟨.branch condition body conditions bodies last, behind⟩
  | whileLoop word test mark inner ih =>
    obtain ⟨condition, behind⟩ := expression_faithful h (behind.kind word (by decide)) test
    obtain ⟨body, behind⟩ := ih (behind.expect mark (by decide))
    exact ⟨.whileLoop condition body, behind⟩
  | repeatLoop word times mark inner ih =>
    obtain ⟨count, behind⟩ := expression_faithful h (behind.kind word (by decide)) times
    obtain ⟨body, behind⟩ := ih ((behind.skip (by decide)).expect mark (by decide))
    exact ⟨.repeatLoop count body, behind⟩
  | forEach word called among whole mark inner ih =>
    obtain ⟨named, behind⟩ := name_named h (behind.kind word (by decide)) called
    obtain ⟨items, behind⟩ := expression_faithful h (behind.expect among (by decide)) whole
    obtain ⟨body, behind⟩ := ih (behind.expect mark (by decide))
    exact ⟨.forEach named items body, behind⟩
  | define word called opened given mark inner ih =>
    obtain ⟨named, behind⟩ := name_named h (behind.kind word (by decide)) called
    obtain ⟨names, behind⟩ := parameters_named h (behind.expect opened (by decide)) given
    obtain ⟨body, behind⟩ := ih (behind.expect mark (by decide))
    exact ⟨.define named names body, behind⟩
  | giveBack word line =>
    obtain ⟨value, behind⟩ := returned_faithful h (behind.kind word (by decide)) line
    exact ⟨.giveBack value, behind⟩
  | attempt word mark inner caught mark' inner' ih ih' =>
    obtain ⟨body, behind⟩ := ih ((behind.kind word (by decide)).expect mark (by decide))
    have behind := behind.expect caught (by decide)
    obtain ⟨handler, behind⟩ := ih' ((behind.skip (by decide)).expect mark' (by decide))
    exact ⟨.attempt body handler, behind⟩
  | importModule word called =>
    obtain ⟨named, behind⟩ := name_named h (behind.kind word (by decide)) called
    exact ⟨.importModule named, behind⟩
  | assign kind mark line =>
    have named := h.identifier behind.mem kind
    have next := (behind.kind kind (by decide)).kind mark (by decide)
    obtain ⟨value, behind⟩ := expression_faithful h next line
    exact ⟨.assign named value, behind⟩
  | assignItem kind mark target mark' line =>
    have indexed := indexed_of_read h kind mark behind target
    obtain ⟨-, behind⟩ := expression_faithful h behind target
    obtain ⟨value, behind⟩ := expression_faithful h (behind.kind mark' (by decide)) line
    exact ⟨.assignIndex indexed value, behind⟩
  | item kind mark line noAssign =>
    obtain ⟨e, behind⟩ := expression_faithful h behind line
    exact ⟨.expression e, behind⟩
  | named kind noAssign noItem line =>
    obtain ⟨e, behind⟩ := expression_faithful h behind line
    exact ⟨.expression e, behind⟩
  | expression plain allowed line =>
    obtain ⟨e, behind⟩ := expression_faithful h behind line
    exact ⟨.expression e, behind⟩
  | block found mark inner ih =>
    have lines := behind.lines
    rw [found] at lines
    exact ih (lines.kind mark (by decide))
  | bodyEnd found => exact ⟨List.forall_mem_nil _, found ▸ behind.lines⟩
  | bodyClose found mark =>
    have lines := behind.lines
    rw [found] at lines
    exact ⟨List.forall_mem_nil _, lines.kind mark (by decide)⟩
  | bodyMore found other first more ih ih' =>
    obtain ⟨s, behind⟩ := ih (found ▸ behind.lines)
    obtain ⟨ss, behind⟩ := ih' behind
    exact ⟨List.forall_mem_cons.mpr ⟨s, ss⟩, behind⟩
  | clause word test mark inner further ih ih' =>
    obtain ⟨condition, behind⟩ := expression_faithful h (behind.kind word (by decide)) test
    obtain ⟨body, behind⟩ := ih ((behind.skip (by decide)).expect mark (by decide))
    obtain ⟨⟨conditions, bodies⟩, behind⟩ := ih' behind
    exact ⟨⟨List.forall_mem_cons.mpr ⟨condition, conditions⟩,
      List.forall_mem_cons.mpr ⟨body, bodies⟩⟩, behind⟩
  | clausesEnd other => exact ⟨⟨List.forall_mem_nil _, List.forall_mem_nil _⟩, behind⟩
  | otherwise word mark inner ih =>
    obtain ⟨body, behind⟩ := ih ((behind.kind word (by decide)).expect mark (by decide))
    refine ⟨?_, behind⟩
    rintro ss ⟨⟩
    exact body
  | otherwiseEnd other =>
    refine ⟨?_, behind⟩
    rintro ss ⟨⟩
  | scriptEnd found => exact ⟨List.forall_mem_nil _, found ▸ behind.lines⟩
  | scriptClose found word => exact ⟨List.forall_mem_nil _, found ▸ behind.lines⟩
  | scriptMore found other first more ih ih' =>
    obtain ⟨s, behind⟩ := ih (found ▸ behind.lines)
    obtain ⟨ss, behind⟩ := ih' behind
    exact ⟨List.forall_mem_cons.mpr ⟨s, ss⟩, behind⟩

end Grammar

end Miaou
