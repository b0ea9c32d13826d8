import Miaou.Syntax.Stmt
import Miaou.Token.Basic

/-!
Tokens and programs at other places. `relocate` moves every position of a token, an expression, a
statement or a program and changes nothing else that matters; in particular it does not change the
printed text, so two programs that are equal up to positions print alike.
-/

namespace Miaou

def Token.relocate (f : Position → Position) (t : Token) : Token :=
  ⟨t.kind, if t.kind.isLayout then .none else t.payload, f t.position⟩

namespace Token

variable (f : Position → Position)

@[simp] theorem kind_relocate (t : Token) : (t.relocate f).kind = t.kind := rfl

@[simp] theorem lexeme_relocate (t : Token) : (t.relocate f).lexeme = t.lexeme := by
  unfold lexeme
  rw [kind_relocate]
  cases h : t.kind.isLayout with
  | true => rfl
  | false => simp [relocate, h]

def unplaced (t : Token) : Token := t.relocate fun _ => .start

end Token

namespace Expr

variable (f : Position → Position)

mutual

def relocate : Expr → Expr
  | .literal pos value => .literal (f pos) value
  | .identifier pos name => .identifier (f pos) name
  | .binary pos op left right => .binary (f pos) op left.relocate right.relocate
  | .unary pos op operand => .unary (f pos) op operand.relocate
  | .call pos function arguments => .call (f pos) function (relocateAll arguments)
  | .list pos items => .list (f pos) (relocateAll items)
  | .dict pos entries => .dict (f pos) (relocateEntries entries)
  | .item pos object index => .item (f pos) object.relocate index.relocate
  | .attribute pos object name => .attribute (f pos) object.relocate name

def relocateAll : List Expr → List Expr
  | [] => []
  | e :: es => e.relocate :: relocateAll es

def relocateEntries : List (Expr × Expr) → List (Expr × Expr)
  | [] => []
  | (key, value) :: entries => (key.relocate, value.relocate) :: relocateEntries entries

end

theorem relocateAll_eq_map (es : List Expr) : relocateAll f es = es.map (relocate f) := by
  induction es with
  | nil => rfl
  | cons e es ih => rw [relocateAll, ih, List.map_cons]

theorem relocateEntries_eq_map (entries : List (Expr × Expr)) : relocateEntries f entries =
    entries.map fun entry => (relocate f entry.1, relocate f entry.2) := by
  induction entries with
  | nil => rfl
  | cons entry entries ih => rw [relocateEntries, ih, List.map_cons]

@[simp] theorem position_relocate (e : Expr) : (e.relocate f).position = f e.position := by
  cases e <;> rfl

mutual

@[simp] theorem text_relocate : (e : Expr) → (e.relocate f).text = e.text
  | .literal _ _ => rfl
  | .identifier _ _ => rfl
  | .binary _ _ left right => by
    rw [relocate, text, text, text_relocate left, text_relocate right]
  | .unary _ _ operand => by rw [relocate, text, text, text_relocate operand]
  | .call _ _ arguments => by rw [relocate, text, text, texts_relocate arguments]
  | .list _ items => by rw [relocate, text, text, texts_relocate items]
  | .dict _ entries => by rw [relocate, text, text, entryTexts_relocate entries]
  | .item _ object index => by
    rw [relocate, text, text, text_relocate object, text_relocate index]
  | .attribute _ object _ => by rw [relocate, text, text, text_relocate object]

@[simp] theorem texts_relocate : (es : List Expr) → texts (relocateAll f es) = texts es
  | [] => rfl
  | e :: es => by rw [relocateAll, texts, texts, text_relocate e, texts_relocate es]

@[simp] theorem entryTexts_relocate :
    (entries : List (Expr × Expr)) → entryTexts (relocateEntries f entries) = entryTexts entries
  | [] => rfl
  | (key, value) :: entries => by
    rw [relocateEntries, entryTexts, entryTexts, text_relocate key, text_relocate value,
      entryTexts_relocate entries]

end

theorem text_of_path {object : Expr} {function : String} (path : object.path? = some function) :
    object.text = function := by
  cases object with
  | identifier place name => exact Option.some.inj path
  | «attribute» place inner name => exact Option.some.inj path
  | _ => cases path

@[simp] theorem path?_relocate : (e : Expr) → (e.relocate f).path? = e.path?
  | .attribute pos object name => congrArg some (text_relocate f (.attribute pos object name))
  | .literal _ _ => rfl
  | .identifier _ _ => rfl
  | .binary _ _ _ _ => rfl
  | .unary _ _ _ => rfl
  | .call _ _ _ => rfl
  | .list _ _ => rfl
  | .dict _ _ => rfl
  | .item _ _ _ => rfl

def unplaced (e : Expr) : Expr := e.relocate fun _ => .start

end Expr

namespace Stmt

variable (f : Position → Position)

mutual

def relocate : Stmt → Stmt
  | .assign pos name value => .assign (f pos) name (value.relocate f)
  | .assignIndex pos object index value =>
    .assignIndex (f pos) (object.relocate f) (index.relocate f) (value.relocate f)
  | .branch pos condition body clauses otherwise =>
    .branch (f pos) (condition.relocate f) (relocateBlock body) (relocateClauses clauses)
      (relocateOtherwise otherwise)
  | .whileLoop pos condition body =>
    .whileLoop (f pos) (condition.relocate f) (relocateBlock body)
  | .repeatLoop pos count body => .repeatLoop (f pos) (count.relocate f) (relocateBlock body)
  | .forEach pos name items body =>
    .forEach (f pos) name (items.relocate f) (relocateBlock body)
  | .define pos name parameters body => .define (f pos) name parameters (relocateBlock body)
  | .giveBack pos value => .giveBack (f pos) (value.map (Expr.relocate f))
  | .attempt pos body handler => .attempt (f pos) (relocateBlock body) (relocateBlock handler)
  | .importModule pos name => .importModule (f pos) name
  | .breakLoop pos => .breakLoop (f pos)
  | .continueLoop pos => .continueLoop (f pos)
  | .pass pos => .pass (f pos)
  | .expression pos value => .expression (f pos) (value.relocate f)

def relocateBlock : List Stmt → List Stmt
  | [] => []
  | s :: ss => s.relocate :: relocateBlock ss

def relocateClauses : List (Expr × List Stmt) → List (Expr × List Stmt)
  | [] => []
  | (condition, body) :: clauses =>
    (condition.relocate f, relocateBlock body) :: relocateClauses clauses

def relocateOtherwise : Option (List Stmt) → Option (List Stmt)
  | none => none
  | some body => some (relocateBlock body)

end

@[simp] theorem expressionText_relocate (e : Expr) :
    expressionText (e.relocate f) = expressionText e := by
  cases e with
  | call pos function arguments =>
    have whole := Expr.text_relocate f (.call pos function arguments)
    rw [Expr.relocate] at whole ⊢
    rw [expressionText, expressionText, whole, Expr.texts_relocate]
  | _ => exact Expr.text_relocate f _

mutual

@[simp] theorem text_relocate (depth : Nat) :
    (s : Stmt) → (s.relocate f).text depth = s.text depth
  | .assign _ _ _ => by simp [relocate, text]
  | .assignIndex _ _ _ _ => by simp [relocate, text]
  | .branch _ _ body clauses otherwise => by
    simp [relocate, text, blockText_relocate _ body, clausesText_relocate depth clauses,
      otherwiseText_relocate depth otherwise]
  | .whileLoop _ _ body => by simp [relocate, text, blockText_relocate _ body]
  | .repeatLoop _ _ body => by simp [relocate, text, blockText_relocate _ body]
  | .forEach _ _ _ body => by simp [relocate, text, blockText_relocate _ body]
  | .define _ _ _ body => by simp [relocate, text, blockText_relocate _ body]
  | .giveBack _ none => rfl
  | .giveBack _ (some _) => by simp [relocate, text]
  | .attempt _ body handler => by
    simp [relocate, text, blockText_relocate _ body, blockText_relocate _ handler]
  | .importModule _ _ => rfl
  | .breakLoop _ => rfl
  | .continueLoop _ => rfl
  | .pass _ => rfl
  | .expression _ _ => by simp [relocate, text]

@[simp] theorem blockText_relocate (depth : Nat) :
    (ss : List Stmt) → blockText depth (relocateBlock f ss) = blockText depth ss
  | [] => rfl
  | s :: ss => by
    simp [relocateBlock, blockText, text_relocate depth s, blockText_relocate depth ss]

@[simp] theorem clausesText_relocate (depth : Nat) : (clauses : List (Expr × List Stmt)) →
    clausesText depth (relocateClauses f clauses) = clausesText depth clauses
  | [] => rfl
  | (_, body) :: clauses => by
    simp [relocateClauses, clausesText, blockText_relocate _ body,
      clausesText_relocate depth clauses]

@[simp] theorem otherwiseText_relocate (depth : Nat) : (otherwise : Option (List Stmt)) →
    otherwiseText depth (relocateOtherwise f otherwise) = otherwiseText depth otherwise
  | none => rfl
  | some body => by simp [relocateOtherwise, otherwiseText, blockText_relocate _ body]

end

end Stmt

namespace Program

def relocate (f : Position → Position) (p : Program) : Program :=
  ⟨Stmt.relocateBlock f p.statements, f p.position⟩

def unplaced (p : Program) : Program := p.relocate fun _ => .start

@[simp] theorem text_relocate (f : Position → Position) (p : Program) :
    (p.relocate f).text = p.text := by
  simp [text, relocate]

theorem text_eq_of_unplaced {p q : Program} (h : p.unplaced = q.unplaced) : p.text = q.text := by
  rw [← text_relocate (fun _ => .start) p, ← text_relocate (fun _ => .start) q]
  exact congrArg text h

end Program

end Miaou
