import Miaou.Proofs.Grammar.Precedence
import Miaou.Proofs.Token.Origin

/-!
What is read from a script can be printed and read again. The printed text of every expression
that was read from the tokens of a script spells this expression, with a pair of parentheses around
each operation.
-/

namespace Miaou.Grammar

open Piece

/-- A random number is drawn with a list of arguments that holds just one. -/
def DrawsOnce (ts : List Token) : Prop :=
  ∃ d t rest inner e us, (d :: t :: rest) <:+ ts ∧ d.kind ≠ .symbol .dot ∧
    t.kind = .keyword .aleatoire ∧ argumentGroup? rest = some inner ∧
      outcome (arguments inner) = .ok ([e], us)

/-- Tokens as a script has them, whose numbers are written without exponent and which draw no
random number from one argument. -/
structure Printable (ts : List Token) : Prop where
  read : ∀ t ∈ ts, t.kind.isLayout = true ∨ t.IsRead
  plain : ∀ t ∈ ts, ∀ x, t.payload = .float x → x.Plain
  draws : ¬ DrawsOnce ts

def Behind (whole ts : List Token) : Prop := ∃ d, d.kind ≠ .symbol .dot ∧ (d :: ts) <:+ whole

variable {whole : List Token}

theorem Behind.next {t : Token} {ts : List Token} (h : Behind whole (t :: ts))
    (other : t.kind ≠ .symbol .dot) : Behind whole ts := by
  obtain ⟨d, -, suffix⟩ := h
  exact ⟨t, other, (List.suffix_cons _ _).trans suffix⟩

theorem Behind.kind {t : Token} {ts : List Token} {kind : Kind} (h : Behind whole (t :: ts))
    (same : t.kind = kind) (other : kind ≠ .symbol .dot) : Behind whole ts :=
  h.next (same ▸ other)

theorem Behind.mem {t : Token} {ts : List Token} (h : Behind whole (t :: ts)) : t ∈ whole := by
  obtain ⟨d, -, suffix⟩ := h
  exact suffix.subset (by simp)

theorem Behind.question {ts : List Token} (h : Behind whole ts) :
    Behind whole (question ts).2 := by
  cases ts with
  | nil => exact h
  | cons t rest =>
    rw [Grammar.question]
    split
    · rename_i kind
      have next := h.kind kind (by decide)
      split
      · exact next
      · exact next
      · exact h
    · exact h

theorem Behind.skipRangeWord {ts : List Token} (h : Behind whole ts) :
    Behind whole (skipRangeWord ts) := by
  cases ts with
  | nil => exact h
  | cons t rest =>
    rw [Grammar.skipRangeWord]
    split
    · rename_i kind
      rw [Bool.and_eq_true, decide_eq_true_eq] at kind
      exact h.kind kind.1 (by decide)
    · exact h

theorem Behind.argumentGroup {ts inner : List Token} (h : Behind whole ts)
    (group : argumentGroup? ts = some inner) : Behind whole inner := by
  cases ts with
  | nil => cases group
  | cons t rest =>
    rw [argumentGroup?] at group
    split at group
    · rename_i kind
      cases group
      rw [Bool.and_eq_true, decide_eq_true_eq] at kind
      exact h.kind kind.1 (by decide)
    · cases group

theorem isRead_of_kind {t : Token} (origin : t.kind.isLayout = true ∨ t.IsRead)
    (other : t.kind.isLayout = false) : t.IsRead :=
  origin.resolve_left fun layout => Bool.noConfusion (layout.symm.trans other)

theorem named_of_names {t : Token} (origin : t.kind.isLayout = true ∨ t.IsRead)
    (names : namesAttribute t.kind = true) : Named t.kind t.lexeme := by
  refine read_named (isRead_of_kind origin ?_) names
  cases kind : t.kind with
  | layout mark =>
    rw [kind] at names
    cases names
  | _ => rfl

theorem isRead_of_literal {t : Token} (origin : t.kind.isLayout = true ∨ t.IsRead) {value : Literal}
    (found : literal? t.kind t.payload = some value) : t.IsRead := by
  refine isRead_of_kind origin ?_
  cases kind : t.kind with
  | layout mark =>
    rw [kind] at found
    cases found
  | _ => rfl

theorem Printable.named {t : Token} (h : Printable whole) (mem : t ∈ whole)
    (names : namesAttribute t.kind = true) : Named t.kind t.lexeme :=
  named_of_names (h.read t mem) names

theorem Printable.identifier {t : Token} (h : Printable whole) (mem : t ∈ whole)
    (kind : t.kind = .identifier) : Named .identifier t.lexeme := by
  have named := h.named mem (by rw [kind]; rfl)
  rwa [kind] at named

theorem Printable.literal {t : Token} (h : Printable whole) (mem : t ∈ whole) {value : Literal}
    (found : literal? t.kind t.payload = some value) : Stands value.text.toList value.token :=
  read_stands (isRead_of_literal (h.read t mem) found) found (h.plain t mem)

/-! Printed expressions -/

/-- The printed text of an expression spells it at the tightest level. -/
def Faithful (e : Expr) : Prop := Spelled .postfixes e e.text

theorem texts_eq_map (es : List Expr) : Expr.texts es = es.map Expr.text := by
  induction es with
  | nil => rfl
  | cons e es ih => rw [Expr.texts, ih, List.map_cons]

theorem entryTexts_eq_map (entries : List (Expr × Expr)) :
    Expr.entryTexts entries = entries.map (printEntry Expr.text) := by
  induction entries with
  | nil => rfl
  | cons entry entries ih => rw [Expr.entryTexts, ih, List.map_cons, printEntry]

theorem spelled_grouped {l : Level} {e : Expr} {text : String} (h : Spelled l e text) :
    Spelled .postfixes e ("(" ++ text ++ ")") := by
  obtain ⟨gs, spells⟩ := h
  have inner : Spells (.expression .lowest e.unplaced) text.toList gs :=
    spells_looser spells l.rank_le
  rw [Spelled, String.toList_append, String.toList_append]
  exact ⟨_, .group inner⟩

theorem faithful_binary {pos : Position} {op : BinaryOp} {left right : Expr} (first : Faithful left)
    (second : Faithful right) : Faithful (.binary pos op left right) := by
  have whole := @spelled_binary pos op left right _ _ (spelled_tight first _)
    (spelled_tight second _)
  have grouped := spelled_grouped whole
  simp only [← String.append_assoc] at grouped
  rwa [Faithful, Expr.text]

theorem faithful_unary {pos : Position} {op : UnaryOp} {operand : Expr} (inner : Faithful operand) :
    Faithful (.unary pos op operand) := by
  have grouped := spelled_grouped (@spelled_unary pos op operand _ (spelled_tight inner _))
  rw [← String.append_assoc] at grouped
  rwa [Faithful, Expr.text]

theorem Faithful.lowest {e : Expr} (h : Faithful e) : Spelled .lowest e e.text :=
  spelled_tight h .lowest

theorem spelledFrom_called {start : List Token} {pos : Position} {object : Expr}
    {function : String} {given : List Expr} (path : object.path? = some function)
    (callee : SpelledFrom start object object.text) (inner : ∀ e ∈ given, Faithful e) :
    SpelledFrom start (.call pos function given) (Expr.call pos function given).text := by
  rw [Expr.text_of_path path] at callee
  rw [Expr.text, texts_eq_map]
  exact spelledFrom_call path callee fun e he => (inner e he).lowest

theorem faithful_call {pos : Position} {object : Expr} {function : String} {given : List Expr}
    (path : object.path? = some function) (callee : Faithful object)
    (inner : ∀ e ∈ given, Faithful e) : Faithful (.call pos function given) :=
  @spelledFrom_called [] pos object function given path callee inner

theorem faithful_list {pos : Position} {items : List Expr} (inner : ∀ e ∈ items, Faithful e) :
    Faithful (.list pos items) := by
  rw [Faithful, Expr.text, texts_eq_map]
  exact spelled_list fun e he => (inner e he).lowest

theorem faithful_dict {pos : Position} {pairs : List (Expr × Expr)}
    (inner : ∀ pair ∈ pairs, Faithful pair.1 ∧ Faithful pair.2) : Faithful (.dict pos pairs) := by
  rw [Faithful, Expr.text, entryTexts_eq_map]
  exact spelled_dict (fun pair h => (inner pair h).1.lowest) fun pair h => (inner pair h).2.lowest

theorem faithful_word {pos : Position} {function : String} {given : List Expr}
    {kind : Kind} (rule : ∀ {es : List Expr} {cs : List Char} {gs : List Token},
      es.length = given.length → Spells (.arguments es) cs gs →
        Spells (.expression .postfixes (.call .start function es)) (function.toList ++ '(' :: cs)
          (.word kind function :: .sign .leftParen :: gs))
    (inner : ∀ e ∈ given, Faithful e) : Faithful (.call pos function given) := by
  obtain ⟨hs, group⟩ := spells_arguments fun e he => (inner e he).lowest
  have whole := rule (List.length_map _) group
  have text : (function ++ "(" ++ Text.separated ", " (given.map Expr.text) ++ ")").toList =
      function.toList ++ '(' :: ((Text.separated ", " (given.map Expr.text)).toList ++ [')']) := by
    simp [String.toList_append]
  rw [Faithful, Expr.text, texts_eq_map, Spelled, text, Expr.unplaced, Expr.relocate,
    Expr.relocateAll_eq_map]
  exact ⟨_, whole⟩

theorem faithful_builtin {pos : Position} (function : Builtin) {given : List Expr}
    (inner : ∀ e ∈ given, Faithful e) : Faithful (.call pos function.function given) :=
  faithful_word (fun _ group => .builtin group) inner

theorem faithful_random {pos : Position} {given : List Expr} (size : given.length ≠ 1)
    (inner : ∀ e ∈ given, Faithful e) : Faithful (.call pos "aleatoire" given) :=
  faithful_word (fun same group => .random (same ▸ size) group) inner

theorem faithful_identifier {pos : Position} {name : String} (named : Expr.IsName name) :
    Faithful (.identifier pos name) := spelled_name named

theorem question_named (ts : List Token) : Named .identifier (question ts).1 := by
  have texte : Named .identifier "demander_texte" :=
    ⟨by decide, by decide, by decide, by decide⟩
  have nombre : Named .identifier "demander_nombre" :=
    ⟨by decide, by decide, by decide, by decide⟩
  cases ts with
  | nil => exact texte
  | cons t rest =>
    rw [question]
    split
    · split
      · exact texte
      · exact nombre
      · exact texte
    · exact texte

/-! Whatever is read -/

def Phrase.All (P : Expr → Prop) : Phrase → Prop
  | .expression _ e | .primary e => P e
  | .operations _ left e => P left → P e
  | .exponent base e => P base → P e
  | .accesses object e => P object → P e
  | .arguments es | .moreArguments es => ∀ e ∈ es, P e
  | .entries pairs | .moreEntries pairs => ∀ pair ∈ pairs, P pair.1 ∧ P pair.2

/-- A property that every expression has from its parts. Literals are those of tokens in `whole`,
and names are words of a script. -/
structure Inherited (whole : List Token) (P : Expr → Prop) : Prop where
  literal {t : Token} {value : Literal} (mem : t ∈ whole)
    (found : literal? t.kind t.payload = some value) : P (.literal t.position value)
  name {pos : Position} {name : String} (named : Expr.IsName name) : P (.identifier pos name)
  unary {pos : Position} {op : UnaryOp} {operand : Expr} (inner : P operand) :
    P (.unary pos op operand)
  binary {pos : Position} {op : BinaryOp} {left right : Expr} (first : P left) (second : P right) :
    P (.binary pos op left right)
  call {pos : Position} {object : Expr} {function : String} {given : List Expr}
    (path : object.path? = some function) (callee : P object) (inner : ∀ e ∈ given, P e) :
    P (.call pos function given)
  item {pos : Position} {object index : Expr} (first : P object) (inner : P index) :
    P (.item pos object index)
  member {pos : Position} {object : Expr} {kind : Kind} {name : String} (first : P object)
    (named : Named kind name) (names : namesAttribute kind = true) : P (.attribute pos object name)
  list {pos : Position} {items : List Expr} (inner : ∀ e ∈ items, P e) : P (.list pos items)
  dict {pos : Position} {pairs : List (Expr × Expr)}
    (inner : ∀ pair ∈ pairs, P pair.1 ∧ P pair.2) : P (.dict pos pairs)
  builtin {pos : Position} (function : Builtin) {given : List Expr} (inner : ∀ e ∈ given, P e) :
    P (.call pos function.function given)
  random {pos : Position} {given : List Expr} (draws : given.length = 1 → DrawsOnce whole)
    (inner : ∀ e ∈ given, P e) : P (.call pos "aleatoire" given)

theorem derives_all {P : Expr → Prop} (inherited : Inherited whole P)
    (read : ∀ t ∈ whole, t.kind.isLayout = true ∨ t.IsRead) {phrase : Phrase}
    {ts rest : List Token} (derives : Derives phrase ts rest) (behind : Behind whole ts) :
    phrase.All P ∧ Behind whole rest := by
  induction derives with
  | chain first more ih ih' =>
    obtain ⟨left, behind⟩ := ih behind
    obtain ⟨e, behind⟩ := ih' behind
    exact ⟨e left, behind⟩
  | power first more ih ih' =>
    obtain ⟨left, behind⟩ := ih behind
    obtain ⟨e, behind⟩ := ih' behind
    exact ⟨e left, behind⟩
  | postfixes first more ih ih' =>
    obtain ⟨left, behind⟩ := ih behind
    obtain ⟨e, behind⟩ := ih' behind
    exact ⟨e left, behind⟩
  | not word operand ih =>
    obtain ⟨inner, behind⟩ := ih (behind.kind word (by decide))
    exact ⟨inherited.unary inner, behind⟩
  | @sign t op e us rest mark operand ih =>
    have other : t.kind ≠ .symbol .dot := by
      intro same
      rw [same] at mark
      cases mark
    obtain ⟨inner, behind⟩ := ih (behind.next other)
    exact ⟨inherited.unary inner, behind⟩
  | affirmed other inner ih => exact ih behind
  | unsigned other inner ih => exact ih behind
  | operationsEnd other => exact ⟨id, behind⟩
  | exponentEnd other => exact ⟨id, behind⟩
  | accessesEnd noCall noItem noPoint => exact ⟨id, behind⟩
  | @operation c t op left right e us vs rest mark operand more ih ih' =>
    have other : t.kind ≠ .symbol .dot := by
      intro same
      rw [same] at mark
      cases c <;> cases mark
    obtain ⟨inner, behind⟩ := ih (behind.next other)
    obtain ⟨e, behind⟩ := ih' behind
    exact ⟨fun left => e (inherited.binary left inner), behind⟩
  | exponent mark operand ih =>
    obtain ⟨inner, behind⟩ := ih (behind.kind mark (by decide))
    exact ⟨fun base => inherited.binary base inner, behind⟩
  | call mark path group more ih ih' =>
    obtain ⟨inner, behind⟩ := ih (behind.kind mark (by decide))
    obtain ⟨e, behind⟩ := ih' behind
    exact ⟨fun object => e (inherited.call path object inner), behind⟩
  | item mark inner close more ih ih' =>
    obtain ⟨index, behind⟩ := ih (behind.kind mark (by decide))
    obtain ⟨e, behind⟩ := ih' (behind.kind close (by decide))
    exact ⟨fun object => e (inherited.item object index), behind⟩
  | @«attribute» t u object e us rest mark name more ih =>
    obtain ⟨d, -, suffix⟩ := behind
    have named := named_of_names (read u (suffix.subset (by simp))) name
    have other : u.kind ≠ .symbol .dot := by
      intro same
      rw [same] at name
      cases name
    obtain ⟨e, behind⟩ := ih ⟨u, other, ((List.suffix_cons _ _).trans (List.suffix_cons _ _)).trans
      suffix⟩
    exact ⟨fun object => e (inherited.member object named name), behind⟩
  | @literal t value rest found =>
    have other : t.kind ≠ .symbol .dot := by
      intro same
      rw [same] at found
      cases found
    exact ⟨inherited.literal behind.mem found, behind.next other⟩
  | @identifier t rest kind =>
    have names : namesAttribute t.kind = true := by rw [kind]; rfl
    have named := named_of_names (read t behind.mem) names
    rw [kind] at named
    exact ⟨inherited.name (.inl named), behind.kind kind (by decide)⟩
  | compteur kind => exact ⟨inherited.name (.inr rfl), behind.kind kind (by decide)⟩
  | group mark inner close ih =>
    obtain ⟨e, behind⟩ := ih (behind.kind mark (by decide))
    exact ⟨e, behind.kind close (by decide)⟩
  | list word mark group ih =>
    obtain ⟨items, behind⟩ := ih ((behind.kind word (by decide)).kind mark (by decide))
    exact ⟨inherited.list items, behind⟩
  | dict word mark group ih =>
    obtain ⟨pairs, behind⟩ := ih ((behind.kind word (by decide)).kind mark (by decide))
    exact ⟨inherited.dict pairs, behind⟩
  | @question t prompt us rest word inner ih =>
    obtain ⟨e, behind⟩ := ih (behind.kind word (by decide)).question
    have callee : P (.identifier .start (question us).1) :=
      inherited.name (.inl (question_named us))
    exact ⟨inherited.call rfl callee (List.forall_mem_singleton.mpr e), behind⟩
  | @random t given us inner rest word call group ih =>
    obtain ⟨d, point, suffix⟩ := behind
    have draws (one : given.length = 1) : DrawsOnce whole := by
      obtain ⟨e, rfl⟩ := List.length_eq_one_iff.mp one
      exact ⟨d, t, us, inner, e, rest, suffix, point, word, call, group.reads⟩
    have next : Behind whole us := ⟨t, by rw [word]; decide, (List.suffix_cons _ _).trans suffix⟩
    obtain ⟨given, behind⟩ := ih (next.argumentGroup call)
    exact ⟨inherited.random draws given, behind⟩
  | range word call first second ih ih' =>
    obtain ⟨low, behind⟩ := ih (behind.kind word (by decide))
    obtain ⟨high, behind⟩ := ih' behind.skipRangeWord
    refine ⟨inherited.random (fun one => absurd one (by simp)) ?_, behind⟩
    intro e he
    rcases List.mem_cons.mp he with rfl | he
    · exact low
    · rw [List.mem_singleton.mp he]
      exact high
  | builtin word mark group ih =>
    obtain ⟨given, behind⟩ := ih ((behind.kind word Kind.noConfusion).kind mark (by decide))
    exact ⟨inherited.builtin _ given, behind⟩
  | bare word noCall inner ih =>
    obtain ⟨e, behind⟩ := ih (behind.kind word Kind.noConfusion)
    exact ⟨inherited.builtin _ (List.forall_mem_singleton.mpr e), behind⟩
  | argumentsNone close => exact ⟨by simp [Phrase.All], behind.kind close (by decide)⟩
  | argumentsEnd close => exact ⟨by simp [Phrase.All], behind.kind close (by decide)⟩
  | entriesNone close => exact ⟨by simp [Phrase.All], behind.kind close (by decide)⟩
  | entriesEnd close => exact ⟨by simp [Phrase.All], behind.kind close (by decide)⟩
  | argumentsMore mark more ih => exact ih (behind.kind mark (by decide))
  | entriesMore mark more ih => exact ih (behind.kind mark (by decide))
  | argument other first more ih ih' =>
    obtain ⟨e, behind⟩ := ih behind
    obtain ⟨es, behind⟩ := ih' behind
    exact ⟨List.forall_mem_cons.mpr ⟨e, es⟩, behind⟩
  | entry other first mark second more ih ih' ih'' =>
    obtain ⟨key, behind⟩ := ih behind
    obtain ⟨value, behind⟩ := ih' (behind.kind mark (by decide))
    obtain ⟨pairs, behind⟩ := ih'' behind
    exact ⟨List.forall_mem_cons.mpr ⟨⟨key, value⟩, pairs⟩, behind⟩

theorem inherited_faithful (h : Printable whole) : Inherited whole Faithful where
  literal mem found := spelled_literal (h.literal mem found)
  name := faithful_identifier
  unary := faithful_unary
  binary := faithful_binary
  call := faithful_call
  item first inner := spelled_item first inner.lowest
  member first named names := spelled_attribute first named names
  list := faithful_list
  dict := faithful_dict
  builtin := faithful_builtin
  random draws inner := faithful_random (fun one => h.draws (draws one)) inner

theorem derives_faithful (h : Printable whole) {phrase : Phrase} {ts rest : List Token}
    (derives : Derives phrase ts rest) (behind : Behind whole ts) :
    phrase.All Faithful ∧ Behind whole rest :=
  derives_all (inherited_faithful h) h.read derives behind

end Miaou.Grammar
