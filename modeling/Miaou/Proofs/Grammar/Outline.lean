import Miaou.Proofs.Grammar.Skeleton

/-!
The outline of a script: its statements, blocks and the clauses of its branching statements, in
their order and each with the number of blocks around it. The tokens from which a part is read
mirror its outline, and parts that follow one another have outlines that follow one another.
-/

namespace Miaou

namespace Outline

inductive Item where
  | statement (s : Stmt)
  /-- A further condition or an else of the branching statement `owner`. -/
  | clause (word : Keyword) (owner : Stmt)
  | block (body : List Stmt)

structure Entry where
  depth : Nat
  item : Item

end Outline

open Outline

namespace Stmt

mutual

def inside (depth : Nat) : Stmt → List Entry
  | .branch pos condition body clauses otherwise =>
    let owner := .branch pos condition body clauses otherwise
    ⟨depth, .block body⟩ :: (linesOutline (depth + 1) body ++
      (clausesOutline depth owner clauses ++ otherwiseOutline depth owner otherwise))
  | .whileLoop _ _ body => ⟨depth, .block body⟩ :: linesOutline (depth + 1) body
  | .repeatLoop _ _ body => ⟨depth, .block body⟩ :: linesOutline (depth + 1) body
  | .forEach _ _ _ body => ⟨depth, .block body⟩ :: linesOutline (depth + 1) body
  | .define _ _ _ body => ⟨depth, .block body⟩ :: linesOutline (depth + 1) body
  | .attempt _ body handler =>
    ⟨depth, .block body⟩ :: (linesOutline (depth + 1) body ++
      ⟨depth, .block handler⟩ :: linesOutline (depth + 1) handler)
  | _ => []

def linesOutline (depth : Nat) : List Stmt → List Entry
  | [] => []
  | s :: ss => ⟨depth, .statement s⟩ :: (s.inside depth ++ linesOutline depth ss)

def clausesOutline (depth : Nat) (owner : Stmt) : List (Expr × List Stmt) → List Entry
  | [] => []
  | (_, body) :: clauses =>
    ⟨depth, .clause .sinonSi owner⟩ :: ⟨depth, .block body⟩ ::
      (linesOutline (depth + 1) body ++ clausesOutline depth owner clauses)

def otherwiseOutline (depth : Nat) (owner : Stmt) : Option (List Stmt) → List Entry
  | none => []
  | some body =>
    ⟨depth, .clause .sinon owner⟩ :: ⟨depth, .block body⟩ :: linesOutline (depth + 1) body

end

def outline (depth : Nat) (s : Stmt) : List Entry := ⟨depth, .statement s⟩ :: s.inside depth

def blockOutline (depth : Nat) (body : List Stmt) : List Entry :=
  ⟨depth, .block body⟩ :: linesOutline (depth + 1) body

def isBranch : Stmt → Bool
  | .branch .. => true
  | _ => false

@[simp] theorem inside_branch (depth : Nat) (pos : Position) (condition : Expr) (body : List Stmt)
    (clauses : List (Expr × List Stmt)) (otherwise : Option (List Stmt)) :
    (branch pos condition body clauses otherwise).inside depth =
      blockOutline depth body ++
        (clausesOutline depth (.branch pos condition body clauses otherwise) clauses ++
          otherwiseOutline depth (.branch pos condition body clauses otherwise) otherwise) := by
  rw [inside]
  rfl

@[simp] theorem inside_attempt (depth : Nat) (pos : Position) (body handler : List Stmt) :
    (attempt pos body handler).inside depth =
      blockOutline depth body ++ blockOutline depth handler := by
  rw [inside]
  rfl

@[simp] theorem linesOutline_cons (depth : Nat) (s : Stmt) (ss : List Stmt) :
    linesOutline depth (s :: ss) = s.outline depth ++ linesOutline depth ss := by
  rw [linesOutline]
  rfl

@[simp] theorem clausesOutline_cons (depth : Nat) (owner : Stmt) (condition : Expr)
    (body : List Stmt) (clauses : List (Expr × List Stmt)) :
    clausesOutline depth owner ((condition, body) :: clauses) =
      ⟨depth, .clause .sinonSi owner⟩ ::
        (blockOutline depth body ++ clausesOutline depth owner clauses) := by
  rw [clausesOutline]
  rfl

theorem outline_subset_lines (depth : Nat) {body : List Stmt} {s : Stmt} (h : s ∈ body) :
    s.outline depth ⊆ linesOutline depth body := by
  induction body with
  | nil => cases h
  | cons first body ih =>
    rw [linesOutline_cons]
    rcases List.mem_cons.mp h with rfl | member
    · exact List.subset_append_left _ _
    · exact List.Subset.trans (ih member) (List.subset_append_right _ _)

theorem outline_subset_block (depth : Nat) {body : List Stmt} {s : Stmt} (h : s ∈ body) :
    s.outline (depth + 1) ⊆ blockOutline depth body :=
  List.Subset.trans (outline_subset_lines (depth + 1) h) (List.subset_cons_self _ _)

theorem block_subset_clauses (depth : Nat) (owner : Stmt) {clauses : List (Expr × List Stmt)}
    {clause : Expr × List Stmt} (h : clause ∈ clauses) :
    blockOutline depth clause.2 ⊆ clausesOutline depth owner clauses := by
  induction clauses with
  | nil => cases h
  | cons first clauses ih =>
    rw [clausesOutline_cons]
    rcases List.mem_cons.mp h with rfl | member
    · exact List.Subset.trans (List.subset_append_left _ _) (List.subset_cons_self _ _)
    · exact List.Subset.trans (ih member)
        (List.Subset.trans (List.subset_append_right _ _) (List.subset_cons_self _ _))

end Stmt

def Program.outline (p : Program) : List Entry := Stmt.linesOutline 0 p.statements

namespace Outline.Entry

def isBlock : Entry → Bool
  | ⟨_, .block _⟩ => true
  | _ => false

def isClause (word : Keyword) : Entry → Bool
  | ⟨_, .clause word' _⟩ => word' = word
  | _ => false

/-- The word a branching statement or one of its clauses begins with, and its depth. -/
def word? : Entry → Option (Keyword × Int)
  | ⟨depth, .statement s⟩ => if s.isBranch then some (.si, depth) else none
  | ⟨depth, .clause word _⟩ => some (word, depth)
  | ⟨_, .block _⟩ => none

end Outline.Entry

/-! Clauses and the statements they belong to -/

namespace Outline

/-- If the entry is a clause, it belongs to a branching statement of `all` at the same depth. -/
def Owned (all : List Entry) (e : Entry) : Prop :=
  ∀ word owner, e.item = .clause word owner →
    ⟨e.depth, .statement owner⟩ ∈ all ∧ owner.isBranch = true

theorem owned_statement (all : List Entry) (depth : Nat) (s : Stmt) :
    Owned all ⟨depth, .statement s⟩ := fun _ _ same => by cases same

theorem owned_block (all : List Entry) (depth : Nat) (body : List Stmt) :
    Owned all ⟨depth, .block body⟩ := fun _ _ same => by cases same

theorem owned_clause {all : List Entry} {depth : Nat} {owner : Stmt} (word : Keyword)
    (here : ⟨depth, .statement owner⟩ ∈ all) (branch : owner.isBranch = true) :
    Owned all ⟨depth, .clause word owner⟩ := by
  rintro _ _ ⟨⟩
  exact ⟨here, branch⟩

end Outline

namespace Stmt

open List (forall_mem_cons forall_mem_append)

theorem owned_block_outline {depth : Nat} {body : List Stmt} {all : List Entry}
    (within : blockOutline depth body ⊆ all)
    (h : linesOutline (depth + 1) body ⊆ all → ∀ e ∈ linesOutline (depth + 1) body, Owned all e) :
    ∀ e ∈ blockOutline depth body, Owned all e :=
  forall_mem_cons.mpr ⟨owned_block all depth body, h (List.cons_subset.mp within).2⟩

mutual

theorem owned_inside (depth : Nat) {all : List Entry} : (s : Stmt) →
    ⟨depth, .statement s⟩ ∈ all → s.inside depth ⊆ all → ∀ e ∈ s.inside depth, Owned all e
  | .branch pos condition body clauses otherwise => by
    intro here within
    rw [inside_branch] at within ⊢
    obtain ⟨block, within⟩ := List.append_subset.mp within
    obtain ⟨second, third⟩ := List.append_subset.mp within
    refine forall_mem_append.mpr ⟨?_, forall_mem_append.mpr ⟨?_, ?_⟩⟩
    · exact owned_block_outline block (owned_lines (depth + 1) body)
    · exact owned_clauses depth here rfl clauses second
    · exact owned_otherwise depth here rfl otherwise third
  | .whileLoop _ _ body => fun _ within => owned_block_outline within (owned_lines _ body)
  | .repeatLoop _ _ body => fun _ within => owned_block_outline within (owned_lines _ body)
  | .forEach _ _ _ body => fun _ within => owned_block_outline within (owned_lines _ body)
  | .define _ _ _ body => fun _ within => owned_block_outline within (owned_lines _ body)
  | .attempt pos body handler => by
    intro _ within
    rw [inside_attempt] at within ⊢
    obtain ⟨first, second⟩ := List.append_subset.mp within
    exact forall_mem_append.mpr ⟨owned_block_outline first (owned_lines _ body),
      owned_block_outline second (owned_lines _ handler)⟩
  | .assign .. | .assignIndex .. | .giveBack .. | .importModule .. | .breakLoop .. => nofun
  | .continueLoop .. | .pass .. | .expression .. => nofun

theorem owned_lines (depth : Nat) {all : List Entry} : (ss : List Stmt) →
    linesOutline depth ss ⊆ all → ∀ e ∈ linesOutline depth ss, Owned all e
  | [] => fun _ => List.forall_mem_nil _
  | s :: ss => by
    intro within
    rw [linesOutline_cons] at within ⊢
    obtain ⟨first, second⟩ := List.append_subset.mp within
    obtain ⟨here, first⟩ := List.cons_subset.mp first
    refine forall_mem_append.mpr ⟨forall_mem_cons.mpr ⟨owned_statement all depth s, ?_⟩, ?_⟩
    · exact owned_inside depth s here first
    · exact owned_lines depth ss second

theorem owned_clauses (depth : Nat) {owner : Stmt} {all : List Entry}
    (here : ⟨depth, .statement owner⟩ ∈ all) (branch : owner.isBranch = true) :
    (clauses : List (Expr × List Stmt)) → clausesOutline depth owner clauses ⊆ all →
      ∀ e ∈ clausesOutline depth owner clauses, Owned all e
  | [] => fun _ => List.forall_mem_nil _
  | (condition, body) :: clauses => by
    intro within
    rw [clausesOutline_cons] at within ⊢
    obtain ⟨-, within⟩ := List.cons_subset.mp within
    obtain ⟨first, second⟩ := List.append_subset.mp within
    refine forall_mem_cons.mpr ⟨owned_clause _ here branch, forall_mem_append.mpr ⟨?_, ?_⟩⟩
    · exact owned_block_outline first (owned_lines (depth + 1) body)
    · exact owned_clauses depth here branch clauses second

theorem owned_otherwise (depth : Nat) {owner : Stmt} {all : List Entry}
    (here : ⟨depth, .statement owner⟩ ∈ all) (branch : owner.isBranch = true) :
    (otherwise : Option (List Stmt)) → otherwiseOutline depth owner otherwise ⊆ all →
      ∀ e ∈ otherwiseOutline depth owner otherwise, Owned all e
  | none => fun _ => List.forall_mem_nil _
  | some body => by
    intro within
    rw [otherwiseOutline] at within ⊢
    exact forall_mem_cons.mpr ⟨owned_clause _ here branch,
      owned_block_outline (List.cons_subset.mp within).2 (owned_lines (depth + 1) body)⟩

end

end Stmt

theorem Program.owned_outline (p : Program) : ∀ e ∈ p.outline, Owned p.outline e :=
  Stmt.owned_lines 0 p.statements (List.Subset.refl _)

/-! Tokens that mirror an outline -/

def balance (ts : List Token) : Int := marks .indent ts - marks .dedent ts

@[simp] theorem balance_append (ts us : List Token) :
    balance (ts ++ us) = balance ts + balance us := by
  simp only [balance, marks, List.countP_append]
  omega

theorem balance_indent {t : Token} (h : t.kind = .layout .indent) : balance [t] = 1 := by
  simp [balance, marks, h]

theorem balance_dedent {t : Token} (h : t.kind = .layout .dedent) : balance [t] = -1 := by
  simp [balance, marks, h]

namespace Outline

def branchWord? : Kind → Option Keyword
  | .keyword .si => some .si
  | .keyword .sinonSi => some .sinonSi
  | .keyword .sinon => some .sinon
  | _ => none

def flat (kind : Kind) : Bool :=
  kind ≠ .layout .indent && kind ≠ .layout .dedent && branchWord? kind = none

/-- The words of branching statements, each with the number of blocks open before it, when
`depth` blocks are open before the tokens. -/
def words (depth : Int) : List Token → List (Keyword × Int)
  | [] => []
  | t :: ts => ((branchWord? t.kind).map (·, depth)).toList ++ words (depth + balance [t]) ts

@[simp] theorem words_append (depth : Int) (ts us : List Token) :
    words depth (ts ++ us) = words depth ts ++ words (depth + balance ts) us := by
  induction ts generalizing depth with
  | nil => simp [words, balance, marks]
  | cons t ts ih =>
    rw [List.cons_append, words, words, ih, List.append_assoc, Int.add_assoc, ← balance_append]
    rfl

@[simp] theorem words_singleton (depth : Int) (t : Token) :
    words depth [t] = ((branchWord? t.kind).map (·, depth)).toList := List.append_nil _

theorem branchWord?_eq_some {kind : Kind} {word : Keyword} (h : branchWord? kind = some word) :
    kind = .keyword word := by
  unfold branchWord? at h
  split at h <;> cases h <;> rfl

section Flat

variable {ts : List Token} (h : ∀ t ∈ ts, flat t.kind = true)

include h

theorem marks_flat : marks .indent ts = 0 ∧ marks .dedent ts = 0 := by
  simp only [marks, List.countP_eq_zero]
  refine ⟨fun t ht => ?_, fun t ht => ?_⟩ <;>
    · have kept := h t ht
      simp only [flat, Bool.and_eq_true, decide_eq_true_eq] at kept ⊢
      simp [kept]

theorem balance_flat : balance ts = 0 := by
  rw [balance, (marks_flat h).1, (marks_flat h).2]
  rfl

theorem words_flat (depth : Int) : words depth ts = [] := by
  induction ts generalizing depth with
  | nil => rfl
  | cons t ts ih =>
    have kept := h t List.mem_cons_self
    simp only [flat, Bool.and_eq_true, decide_eq_true_eq] at kept
    rw [words, kept.2, ih fun u hu => h u (List.mem_cons_of_mem _ hu)]
    rfl

end Flat

/-- The statement stands in the tokens: a text token is at its position, and there `d` blocks are
open, when `depth` blocks are open before the tokens. -/
def Placed (depth : Int) (ts : List Token) (d : Nat) (s : Stmt) : Prop :=
  ∃ before t behind, ts = before ++ t :: behind ∧ t.kind.isLayout = false ∧
    t.position = s.position ∧ depth + balance before = d ∧
    (s.isBranch = true → t.kind = .keyword .si)

theorem Placed.left {depth : Int} {ts : List Token} {d : Nat} {s : Stmt} (h : Placed depth ts d s)
    (us : List Token) : Placed depth (ts ++ us) d s := by
  obtain ⟨before, t, behind, rfl, stands⟩ := h
  exact ⟨before, t, behind ++ us, by simp, stands⟩

theorem Placed.right {depth : Int} {us : List Token} {d : Nat} {s : Stmt} (ts : List Token)
    (h : Placed (depth + balance ts) us d s) : Placed depth (ts ++ us) d s := by
  obtain ⟨before, t, behind, rfl, text, here, open', word⟩ := h
  refine ⟨ts ++ before, t, behind, by simp, text, here, ?_, word⟩
  rw [balance_append, ← Int.add_assoc, open']

/-- The tokens of a part whose outline is `entries`, with `depth` blocks around it. -/
structure Mirrors (depth : Nat) (entries : List Entry) (ts : List Token) : Prop where
  closed : balance ts = 0
  blocks : entries.countP Entry.isBlock = marks .indent ts
  inhabited : ∀ d body, ⟨d, .block body⟩ ∈ entries → body ≠ []
  words : words depth ts = entries.filterMap Entry.word?
  placed : ∀ d s, ⟨d, .statement s⟩ ∈ entries → Placed depth ts d s

namespace Mirrors

variable {depth : Nat} {entries entries' : List Entry} {ts ts' : List Token}

theorem append (h : Mirrors depth entries ts) (h' : Mirrors depth entries' ts') :
    Mirrors depth (entries ++ entries') (ts ++ ts') where
  closed := by rw [balance_append, h.closed, h'.closed]; rfl
  blocks := by rw [List.countP_append, h.blocks, h'.blocks, marks, marks, marks,
    List.countP_append]
  inhabited d body member := by
    rcases List.mem_append.mp member with member | member
    · exact h.inhabited d body member
    · exact h'.inhabited d body member
  words := by
    rw [words_append, h.closed, Int.add_zero, h.words, h'.words, List.filterMap_append]
  placed d s member := by
    rcases List.mem_append.mp member with member | member
    · exact (h.placed d s member).left ts'
    · refine .right ts ?_
      rw [h.closed, Int.add_zero]
      exact h'.placed d s member

theorem nothing (depth : Nat) (h : ∀ t ∈ ts, flat t.kind = true) : Mirrors depth [] ts where
  closed := balance_flat h
  blocks := (marks_flat h).1.symm
  inhabited d body member := by cases member
  words := words_flat h depth
  placed d s member := by cases member

theorem statement (depth : Nat) {s : Stmt} (plain : s.isBranch = false)
    (h : ∀ t ∈ ts, flat t.kind = true) {t : Token} (member : t ∈ ts)
    (text : t.kind.isLayout = false) (here : t.position = s.position) :
    Mirrors depth [⟨depth, .statement s⟩] ts where
  closed := balance_flat h
  blocks := (marks_flat h).1.symm
  inhabited d body member := by simp at member
  words := by
    rw [words_flat h, List.filterMap_cons_none (by simp [Entry.word?, plain])]
    rfl
  placed d s member' := by
    cases List.mem_singleton.mp member'
    obtain ⟨before, behind, rfl⟩ := List.append_of_mem member
    have before' := balance_flat fun u hu => h u (List.mem_append_left _ hu)
    exact ⟨before, t, behind, rfl, text, here, by rw [before']; rfl, by simp [plain]⟩

theorem branch (depth : Nat) {s : Stmt} (branch : s.isBranch = true) {t : Token}
    (word : t.kind = .keyword .si) (here : t.position = s.position) :
    Mirrors depth [⟨depth, .statement s⟩] [t] where
  closed := by simp [balance, marks, word]
  blocks := by simp [marks, word, Entry.isBlock]
  inhabited d body member := by simp at member
  words := by simp [word, branchWord?, Entry.word?, branch]
  placed d s member := by
    cases List.mem_singleton.mp member
    exact ⟨[], t, [], rfl, by rw [word]; rfl, here, by simp [balance, marks], fun _ => word⟩

theorem clause (depth : Nat) (owner : Stmt) {word : Keyword} {t : Token}
    (kind : branchWord? t.kind = some word) : Mirrors depth [⟨depth, .clause word owner⟩] [t] where
  closed := by simp [balance, marks, branchWord?_eq_some kind]
  blocks := by simp [marks, branchWord?_eq_some kind, Entry.isBlock]
  inhabited d body member := by simp at member
  words := by simp [kind, Entry.word?]
  placed d s member := by simp at member

theorem block {t u : Token} {body : List Stmt} (ne : body ≠ []) (opens : t.kind = .layout .indent)
    (h : Mirrors (depth + 1) (Stmt.linesOutline (depth + 1) body) ts)
    (closes : u.kind = .layout .dedent) :
    Mirrors depth (Stmt.blockOutline depth body) ([t] ++ (ts ++ [u])) where
  closed := by
    rw [balance_append, balance_append, h.closed, balance_indent opens, balance_dedent closes]
    rfl
  blocks := by
    rw [Stmt.blockOutline, List.countP_cons_of_pos rfl, h.blocks]
    simp only [marks, List.countP_append]
    simp [opens, closes, Nat.add_comm]
  inhabited d body' member := by
    rcases List.mem_cons.mp member with same | member
    · cases same
      exact ne
    · exact h.inhabited d body' member
  words := by
    rw [words_append, words_append, words_singleton, words_singleton, opens, closes,
      balance_indent opens, Stmt.blockOutline, List.filterMap_cons_none rfl, ← h.words]
    exact List.append_nil _
  placed d s member := by
    rcases List.mem_cons.mp member with same | member
    · cases same
    · refine .right [t] (.left ?_ [u])
      rw [balance_indent opens]
      exact h.placed d s member

end Mirrors

end Outline

end Miaou
