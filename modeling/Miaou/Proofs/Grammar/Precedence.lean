import Miaou.Proofs.Grammar.Completion
import Miaou.Proofs.Grammar.Relocation
import Miaou.Proofs.Token.Line

/-!
Precedence and associativity. `Expr.terse` prints an expression with no more parentheses than the
table of levels asks for: an operand is parenthesised when it is looser than its place allows. The
text is read back as the expression it was printed from.
-/

namespace Miaou

open Grammar

/-! The table -/

def BinaryOp.level : BinaryOp → Level
  | .or => .chain .disjunction
  | .and => .chain .conjunction
  | .eq | .eqEq | .notEq | .lt | .gt | .ltEq | .gtEq => .chain .comparison
  | .add | .sub => .chain .sum
  | .mul | .div | .floorDiv | .mod => .chain .product
  | .pow => .power

def BinaryOp.leftLevel : BinaryOp → Level
  | .pow => .sign
  | op => op.level

def BinaryOp.rightLevel : BinaryOp → Level
  | .or => .chain .conjunction
  | .and => .negation
  | .eq | .eqEq | .notEq | .lt | .gt | .ltEq | .gtEq => .chain .sum
  | .add | .sub => .chain .product
  | .mul | .div | .floorDiv | .mod => .power
  | .pow => .power

def UnaryOp.level : UnaryOp → Level
  | .not => .negation
  | .neg | .plus => .sign

namespace Expr

def enclosed (own place : Level) (text : String) : String :=
  if own.rank ≤ place.rank then text else "(" ++ text ++ ")"

mutual

def terse : Expr → Level → String
  | .literal _ value, _ => value.text
  | .identifier _ name, _ => name
  | .binary _ op left right, place =>
    enclosed op.level place
      (left.terse op.leftLevel ++ " " ++ op.text ++ " " ++ right.terse op.rightLevel)
  | .unary _ op operand, place => enclosed op.level place (op.lead ++ operand.terse op.level)
  | .call _ function arguments, _ =>
    function ++ "(" ++ Text.separated ", " (terseTexts arguments) ++ ")"
  | .list _ items, _ => "liste(" ++ Text.separated ", " (terseTexts items) ++ ")"
  | .dict _ entries, _ => "dictionnaire(" ++ Text.separated ", " (terseEntries entries) ++ ")"
  | .item _ object index, _ => object.terse .postfixes ++ "[" ++ index.terse .lowest ++ "]"
  | .attribute _ object name, _ => object.terse .postfixes ++ "." ++ name

def terseTexts : List Expr → List String
  | [] => []
  | e :: es => e.terse .lowest :: terseTexts es

def terseEntries : List (Expr × Expr) → List String
  | [] => []
  | (key, value) :: entries =>
    (key.terse .lowest ++ ": " ++ value.terse .lowest) :: terseEntries entries

end

def IsName (name : String) : Prop := Piece.Named .identifier name ∨ name = "compteur"

/-- Expressions that a script can spell without a function of the language. -/
inductive Spellable : Expr → Prop where
  | int {pos : Position} {n : Nat} (small : n ≤ Lexeme.largest) :
      Spellable (.literal pos (.int n))
  | str {pos : Position} {s : String} : Spellable (.literal pos (.str s))
  | bool {pos : Position} {b : Bool} : Spellable (.literal pos (.bool b))
  | identifier {pos : Position} {name : String} (named : IsName name) :
      Spellable (.identifier pos name)
  | binary {pos : Position} {op : BinaryOp} {left right : Expr} (first : Spellable left)
      (second : Spellable right) : Spellable (.binary pos op left right)
  | unary {pos : Position} {op : UnaryOp} {operand : Expr} (inner : Spellable operand) :
      Spellable (.unary pos op operand)
  | call {pos : Position} {function : String} {given : List Expr} (named : IsName function)
      (inner : ∀ e ∈ given, Spellable e) : Spellable (.call pos function given)
  | list {pos : Position} {items : List Expr} (inner : ∀ e ∈ items, Spellable e) :
      Spellable (.list pos items)
  | dict {pos : Position} {entries : List (Expr × Expr)}
      (keys : ∀ entry ∈ entries, Spellable entry.1)
      (values : ∀ entry ∈ entries, Spellable entry.2) : Spellable (.dict pos entries)
  | item {pos : Position} {object index : Expr} (first : Spellable object)
      (inner : Spellable index) : Spellable (.item pos object index)
  | attribute {pos : Position} {object : Expr} {kind : Kind} {name : String}
      (first : Spellable object) (named : Piece.Named kind name)
      (names : namesAttribute kind = true) : Spellable (.attribute pos object name)

end Expr

namespace Grammar

open Piece

theorem spelled_enclosed {own : Level} {e : Expr} {text : String} (h : Spelled own e text)
    (place : Level) : Spelled place e (Expr.enclosed own place text) := by
  obtain ⟨gs, spells⟩ := h
  by_cases le : own.rank ≤ place.rank
  · rw [Expr.enclosed, if_pos le]
    exact ⟨gs, spells_looser spells le⟩
  · have inner : Spells (.expression .lowest e.unplaced) text.toList gs :=
      spells_looser spells own.rank_le
    have grouped := spells_looser (.group inner) (Level.one_le_rank place)
    rw [Expr.enclosed, if_neg le, Spelled, String.toList_append, String.toList_append]
    exact ⟨_, grouped⟩

theorem spelled_tight {e : Expr} {text : String} (h : Spelled .postfixes e text) (place : Level) :
    Spelled place e text := by
  obtain ⟨gs, spells⟩ := h
  exact ⟨gs, spells_looser spells (Level.one_le_rank place)⟩

theorem spelled_name {pos : Position} {name : String} (named : Expr.IsName name) :
    Spelled .postfixes (.identifier pos name) name := by
  rcases named with named | rfl
  · exact ⟨_, .name named⟩
  · exact ⟨_, .compteur⟩

theorem spelled_binary {pos : Position} {op : BinaryOp} {left right : Expr}
    {first second : String} (h : Spelled op.leftLevel left first)
    (h' : Spelled op.rightLevel right second) :
    Spelled op.level (.binary pos op left right) (first ++ " " ++ op.text ++ " " ++ second) := by
  obtain ⟨gs, spells⟩ := h
  obtain ⟨hs, spells'⟩ := h'
  have text : (first ++ " " ++ op.text ++ " " ++ second).toList =
      first.toList ++ ' ' :: (op.text.toList ++ ' ' :: second.toList) := by
    simp [String.toList_append]
  rw [Spelled, text]
  by_cases power : op = .pow
  · subst power
    exact ⟨_, .power spells spells'⟩
  · obtain ⟨c, mark, level, operands⟩ : ∃ c, op.chain? = some c ∧ op.level = .chain c ∧
        op.rightLevel = c.operands := by
      cases op <;> first | exact ⟨_, rfl, rfl, rfl⟩ | exact absurd rfl power
    have leftLevel : op.leftLevel = op.level := by
      cases op <;> first | rfl | exact absurd rfl power
    rw [leftLevel, level] at spells
    rw [operands] at spells'
    rw [level]
    exact ⟨_, .operation mark spells spells'⟩

theorem spelled_unary {pos : Position} {op : UnaryOp} {operand : Expr} {text : String}
    (h : Spelled op.level operand text) :
    Spelled op.level (.unary pos op operand) (op.lead ++ text) := by
  obtain ⟨gs, spells⟩ := h
  rw [Spelled, String.toList_append]
  cases op with
  | not => exact ⟨_, .not spells⟩
  | neg => exact ⟨_, .sign (s := .minus) rfl spells⟩
  | plus => exact ⟨_, .sign (s := .plus) rfl spells⟩

theorem terseTexts_eq_map (es : List Expr) :
    Expr.terseTexts es = es.map fun e => e.terse .lowest := by
  induction es with
  | nil => rfl
  | cons e es ih => rw [Expr.terseTexts, ih, List.map_cons]

theorem terseEntries_eq_map (entries : List (Expr × Expr)) :
    Expr.terseEntries entries = entries.map (printEntry fun e => e.terse .lowest) := by
  induction entries with
  | nil => rfl
  | cons entry entries ih => rw [Expr.terseEntries, ih, List.map_cons, printEntry]

theorem spelled_literal {pos : Position} {value : Literal}
    (h : Stands value.text.toList value.token) :
    Spelled .postfixes (.literal pos value) value.text := ⟨_, .literal h⟩

def SpelledFrom (start : List Token) (e : Expr) (text : String) : Prop :=
  ∃ gs, Spells (.expression .postfixes e.unplaced) text.toList (start ++ gs)

theorem spelledFrom_call {start : List Token} {pos : Position} {object : Expr} {function : String}
    {given : List Expr} {print : Expr → String} (path : object.path? = some function)
    (first : SpelledFrom start object function)
    (inner : ∀ e ∈ given, Spelled .lowest e (print e)) :
    SpelledFrom start (.call pos function given)
      (function ++ "(" ++ Text.separated ", " (given.map print) ++ ")") := by
  obtain ⟨gs, first⟩ := first
  obtain ⟨hs, group⟩ := spells_arguments inner
  have whole := Spells.call ((Expr.path?_relocate _ object).trans path) first group
  have text : (function ++ "(" ++ Text.separated ", " (given.map print) ++ ")").toList =
      function.toList ++ '(' :: ((Text.separated ", " (given.map print)).toList ++ [')']) := by
    simp [String.toList_append]
  rw [List.append_assoc] at whole
  rw [SpelledFrom, text, Expr.unplaced, Expr.relocate, Expr.relocateAll_eq_map]
  exact ⟨_, whole⟩

theorem spelled_call {pos : Position} {object : Expr} {function : String} {given : List Expr}
    {print : Expr → String} (path : object.path? = some function)
    (first : Spelled .postfixes object function)
    (inner : ∀ e ∈ given, Spelled .lowest e (print e)) :
    Spelled .postfixes (.call pos function given)
      (function ++ "(" ++ Text.separated ", " (given.map print) ++ ")") :=
  @spelledFrom_call [] pos object function given print path first inner

theorem spelled_list {pos : Position} {items : List Expr} {print : Expr → String}
    (inner : ∀ e ∈ items, Spelled .lowest e (print e)) :
    Spelled .postfixes (.list pos items)
      ("liste(" ++ Text.separated ", " (items.map print) ++ ")") := by
  obtain ⟨gs, group⟩ := spells_arguments inner
  have whole := Spells.list group
  have text : ("liste(" ++ Text.separated ", " (items.map print) ++ ")").toList =
      "liste".toList ++ '(' :: ((Text.separated ", " (items.map print)).toList ++ [')']) := by
    simp [String.toList_append]
  rw [Spelled, text, Expr.unplaced, Expr.relocate, Expr.relocateAll_eq_map]
  exact ⟨_, whole⟩

theorem spelled_dict {pos : Position} {pairs : List (Expr × Expr)} {print : Expr → String}
    (keys : ∀ pair ∈ pairs, Spelled .lowest pair.1 (print pair.1))
    (values : ∀ pair ∈ pairs, Spelled .lowest pair.2 (print pair.2)) :
    Spelled .postfixes (.dict pos pairs)
      ("dictionnaire(" ++ Text.separated ", " (pairs.map (printEntry print)) ++ ")") := by
  obtain ⟨gs, group⟩ := spells_entries keys values
  have whole := Spells.dict group
  have text :
      ("dictionnaire(" ++ Text.separated ", " (pairs.map (printEntry print)) ++ ")").toList =
      "dictionnaire".toList ++
        '(' :: ((Text.separated ", " (pairs.map (printEntry print))).toList ++ [')']) := by
    simp [String.toList_append]
  rw [Spelled, text, Expr.unplaced, Expr.relocate, Expr.relocateEntries_eq_map]
  exact ⟨_, whole⟩

theorem spelledFrom_item {start : List Token} {pos : Position} {object index : Expr}
    {first inner : String} (h : SpelledFrom start object first)
    (h' : Spelled .lowest index inner) :
    SpelledFrom start (.item pos object index) (first ++ "[" ++ inner ++ "]") := by
  obtain ⟨gs, spells⟩ := h
  obtain ⟨hs, spells'⟩ := h'
  have whole := Spells.item spells spells'
  have text : (first ++ "[" ++ inner ++ "]").toList =
      first.toList ++ '[' :: (inner.toList ++ [']']) := by
    simp [String.toList_append]
  rw [List.append_assoc] at whole
  rw [SpelledFrom, text]
  exact ⟨_, whole⟩

theorem spelled_item {pos : Position} {object index : Expr} {first inner : String}
    (h : Spelled .postfixes object first) (h' : Spelled .lowest index inner) :
    Spelled .postfixes (.item pos object index) (first ++ "[" ++ inner ++ "]") :=
  @spelledFrom_item [] pos object index first inner h h'

theorem spelledFrom_attribute {start : List Token} {pos : Position} {object : Expr} {kind : Kind}
    {first name : String} (h : SpelledFrom start object first) (named : Named kind name)
    (names : namesAttribute kind = true) :
    SpelledFrom start (.attribute pos object name) (first ++ "." ++ name) := by
  obtain ⟨gs, spells⟩ := h
  have whole := Spells.attribute named names spells
  have text : (first ++ "." ++ name).toList = first.toList ++ '.' :: name.toList := by
    simp [String.toList_append]
  rw [List.append_assoc] at whole
  rw [SpelledFrom, text]
  exact ⟨_, whole⟩

theorem spelled_attribute {pos : Position} {object : Expr} {kind : Kind} {first name : String}
    (h : Spelled .postfixes object first) (named : Named kind name)
    (names : namesAttribute kind = true) :
    Spelled .postfixes (.attribute pos object name) (first ++ "." ++ name) :=
  @spelledFrom_attribute [] pos object kind first name h named names

/-- The terse text of an expression is spelled at the place it is printed for. -/
theorem spelled_terse {e : Expr} (h : e.Spellable) (place : Level) :
    Spelled place e (e.terse place) := by
  induction h generalizing place with
  | int small => exact spelled_tight (spelled_literal (stands_natural small)) place
  | str => exact spelled_tight (spelled_literal (stands_quoted _)) place
  | bool => exact spelled_tight (spelled_literal (stands_truth _)) place
  | identifier named => exact spelled_tight (spelled_name named) place
  | binary first second ih ih' => exact spelled_enclosed (spelled_binary (ih _) (ih' _)) place
  | unary inner ih => exact spelled_enclosed (spelled_unary (ih _)) place
  | call named inner ih =>
    rw [Expr.terse, terseTexts_eq_map]
    exact spelled_tight
      (@spelled_call .start (.identifier .start _) _ _ _ rfl (spelled_name named) fun e he =>
        ih e he .lowest) place
  | list inner ih =>
    rw [Expr.terse, terseTexts_eq_map]
    exact spelled_tight (spelled_list fun e he => ih e he .lowest) place
  | dict keys values ih ih' =>
    rw [Expr.terse, terseEntries_eq_map]
    exact spelled_tight
      (spelled_dict (fun pair h => ih pair h .lowest) fun pair h => ih' pair h .lowest) place
  | item first inner ih ih' => exact spelled_tight (spelled_item (ih _) (ih' _)) place
  | «attribute» first named names ih =>
    exact spelled_tight (spelled_attribute (ih _) named names) place

/-! Reading it back -/

theorem Derives.unplaced {l : Level} {ts us : List Token} {e : Expr}
    (h : Derives (.expression l e) ts us) :
    Derives (.expression l e.unplaced) (ts.map Token.unplaced) (us.map Token.unplaced) := by
  have moved := @expression_relocate (fun _ => .start) l ts
  rw [derives_expression.mp h] at moved
  exact derives_expression.mpr moved

theorem expression_placed {l : Level} {ts us : List Token} {e : Expr}
    (h : Derives (.expression l e) ((ts ++ us).map Token.unplaced) (us.map Token.unplaced)) :
    ∃ e', outcome (expression l (ts ++ us)) = .ok (e', us) ∧ e'.unplaced = e := by
  have read := derives_expression.mp h
  have same := @expression_relocate (fun _ => .start) l (ts ++ us)
  change outcome (expression l ((ts ++ us).map Token.unplaced)) = _ at same
  rw [read] at same
  cases found : outcome (expression l (ts ++ us)) with
  | error failure =>
    rw [found] at same
    cases same
  | ok result =>
    obtain ⟨e', rest⟩ := result
    rw [found] at same
    obtain ⟨tree, left⟩ := Prod.mk.inj (Except.ok.inj same)
    have size : rest.length = us.length := by simpa using (congrArg List.length left).symm
    obtain ⟨taken, whole⟩ := (derives_expression.mpr found).suffix
    obtain ⟨-, rfl⟩ := List.append_inj' whole size
    exact ⟨e', rfl, tree.symm⟩

/-- The terse text of an expression is read back as this expression, and no further: on its
tokens and the end of a line, the reader of expressions takes the tokens and leaves the end. -/
theorem terse_read_back {e : Expr} (h : e.Spellable) :
    ∃ ts finish, tokenize (e.terse .lowest) = .ok (ts ++ [.eof finish]) ∧
      ∀ q rest, ∃ e', outcome (expression .lowest (ts ++ .newline q :: rest)) =
        .ok (e', .newline q :: rest) ∧ e'.unplaced = e.unplaced := by
  obtain ⟨gs, spells⟩ := spelled_terse h .lowest
  have opening := spells_opening spells
  obtain ⟨ts, finish, read, rfl⟩ := tokenize_yields opening.begins (spells_yields spells ends_nil)
  refine ⟨ts, finish, read, fun q rest => expression_placed ?_⟩
  have whole := derives_of_completes (spells_completes spells)
    (@halts_of_none ((Token.newline q).unplaced) rfl 9 (rest.map Token.unplaced))
  rwa [List.map_append, List.map_cons]

/-- A difference keeps its parentheses as the base of a power, a sign needs none in the exponent,
and neither does the power behind a negation. -/
theorem terse_read_back_power :
    ∃ ts finish, tokenize "non (a - b) ** -c[1] et d" = .ok (ts ++ [.eof finish]) ∧
      ∀ q rest, ∃ e', outcome (expression .lowest (ts ++ .newline q :: rest)) =
        .ok (e', .newline q :: rest) ∧
          e'.unplaced = .binary .start .and
            (.unary .start .not (.binary .start .pow
              (.binary .start .sub (.identifier .start "a") (.identifier .start "b"))
              (.unary .start .neg
                (.item .start (.identifier .start "c") (.literal .start (.int 1))))))
            (.identifier .start "d") := by
  have name (w : String) (word : isWord w.toList = true)
      (free : Kind.ofWord? (Lexeme.lowered w.toList) = none)
      (single : Lexeme.compound? (Lexeme.lowered w.toList) = none) :
      Expr.Spellable (.identifier .start w) :=
    .identifier (.inl ⟨word, by rw [free]; rfl, by decide, single⟩)
  have a := name "a" (by decide) (by decide) (by decide)
  have b := name "b" (by decide) (by decide) (by decide)
  have c := name "c" (by decide) (by decide) (by decide)
  have d := name "d" (by decide) (by decide) (by decide)
  have one : Expr.Spellable (.literal .start (.int (1 : Nat))) := .int (by decide)
  have exponent := @Expr.Spellable.unary .start .neg _ (@Expr.Spellable.item .start _ _ c one)
  have power := @Expr.Spellable.binary .start .pow _ _ (@Expr.Spellable.binary .start .sub _ _ a b)
    exponent
  have whole := terse_read_back
    (@Expr.Spellable.binary .start .and _ _ (@Expr.Spellable.unary .start .not _ power) d)
  exact whole

end Grammar

end Miaou
