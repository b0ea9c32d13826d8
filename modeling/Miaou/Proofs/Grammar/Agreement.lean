import Miaou.Proofs.Grammar.Cursor
import Miaou.Proofs.Grammar.Locality

/-!
A procedure agrees with a reading if, begun before the tokens that are read and run up to the first
end token, it gives the result of the reading and its place never passes that token. Each way to
build a procedure has one lemma of agreement.
-/

namespace Miaou.Grammar.Reader

def newlines : Reader Unit := fun us => .ok ((), Grammar.skipNewlines us)

def entry : Reader (Expr × Expr) :=
  (expression .lowest).andThen fun key =>
    (expect (.symbol .colon) (.missingElement .colon)).andThen fun _ =>
      (expression .lowest).andThen fun value => done (key, value)

theorem entries_cons {t : Token} (h : t.kind ≠ .symbol .rightParen) (rest : List Token) :
    entries (t :: rest) =
      entry.andThen (fun e => moreEntries.andThen fun more => done (e :: more)) (t :: rest) := by
  have whole : entries (t :: rest) = (expression .lowest).andThen (fun key =>
      (expect (.symbol .colon) (.missingElement .colon)).andThen fun _ =>
        (expression .lowest).andThen fun value =>
          moreEntries.andThen fun more => done ((key, value) :: more)) (t :: rest) :=
    outcome_entries h rest
  rw [whole, entry]
  simp only [andThen_assoc]
  rfl

theorem entry_length {us vs : List Token} {e : Expr × Expr} (h : entry us = .ok (e, vs)) :
    vs.length < us.length := by
  obtain ⟨⟨key, ws⟩, first, more⟩ := bind_ok h
  obtain ⟨⟨_, xs⟩, colon, more⟩ := bind_ok more
  obtain ⟨⟨value, ys⟩, second, same⟩ := bind_ok more
  cases same
  have lt := outcome_rest_lt first
  have lt' := outcome_rest_lt colon
  have lt'' := outcome_rest_lt second
  omega

end Miaou.Grammar.Reader

namespace Miaou.Cursor

open Grammar

namespace Source

variable (s : Source)

def text : List Token := Program.body s.tokens

def stop : Nat := s.text.length

theorem split : ∃ t behind, s.tokens = s.text ++ t :: behind ∧ t.kind = .layout .eof :=
  Program.Ended.split s.ended

theorem stop_lt : s.stop < s.tokens.length := by
  obtain ⟨t, behind, whole, -⟩ := s.split
  rw [whole, stop, List.length_append, List.length_cons]
  omega

theorem first_end : (∃ t ∈ s.tokens[s.stop]?, t.kind = .layout .eof) ∧
    ∀ t ∈ s.tokens.take s.stop, t.kind ≠ .layout .eof := by
  obtain ⟨t, behind, whole, last⟩ := s.split
  constructor
  · refine ⟨t, ?_, last⟩
    rw [whole, stop, List.getElem?_append_right (Nat.le_refl _)]
    simp
  · intro u hu
    rw [whole, stop, List.take_left] at hu
    exact Program.kind_of_mem_body hu

def front (us : List Token) : Token := us.headD (s.tokens.get ⟨s.stop, s.stop_lt⟩)

@[simp] theorem front_cons (t : Token) (us : List Token) : s.front (t :: us) = t := rfl

@[simp] theorem front_nil_kind : (s.front []).kind = .layout .eof := by
  obtain ⟨t, behind, whole, last⟩ := s.split
  have place : s.tokens.get ⟨s.stop, s.stop_lt⟩ = t := by simp [whole, stop]
  rw [front, List.headD_nil, place, last]

@[simp] theorem front_nil_position : (s.front []).position = Program.finish s.tokens := by
  obtain ⟨t, behind, whole, last⟩ := s.split
  have place : s.tokens.get ⟨s.stop, s.stop_lt⟩ = t := by simp [whole, stop]
  have inside : ∀ u ∈ s.text, u.kind ≠ .layout .eof := fun u hu => Program.kind_of_mem_body hu
  rw [front, List.headD_nil, place, whole, Program.finish_append inside last]

def Left (place : Nat) (us : List Token) : Prop := us <:+ s.text ∧ place + us.length = s.stop

variable {s}

theorem Left.le {place : Nat} {us : List Token} (h : s.Left place us) : place ≤ s.stop := by
  have sum := h.2
  omega

theorem left_drop {place : Nat} (h : place ≤ s.stop) : s.Left place (s.text.drop place) := by
  refine ⟨List.drop_suffix _ _, ?_⟩
  rw [List.length_drop]
  exact Nat.add_sub_cancel' h

theorem Left.kind {place : Nat} {t : Token} {rest : List Token} (h : s.Left place (t :: rest)) :
    t.kind ≠ .layout .eof :=
  Program.kind_of_mem_body (h.1.subset List.mem_cons_self)

theorem Left.next {place : Nat} {t : Token} {rest : List Token} (h : s.Left place (t :: rest)) :
    s.Left (place + 1) rest := by
  have sum := h.2
  rw [List.length_cons] at sum
  exact ⟨(List.suffix_cons t rest).trans h.1, by omega⟩

theorem Left.get {place : Nat} {us : List Token} (h : s.Left place us) :
    s.tokens[place]? = some (s.front us) := by
  obtain ⟨⟨before, whole⟩, sum⟩ := h
  have place_eq : place = before.length := by
    rw [stop, ← whole, List.length_append] at sum
    omega
  cases us with
  | nil =>
    have at_stop : place = s.stop := by simpa using sum
    rw [at_stop, List.getElem?_eq_getElem s.stop_lt]
    rfl
  | cons t rest =>
    obtain ⟨e, behind, cut, -⟩ := s.split
    rw [cut, ← whole, place_eq, List.append_assoc, List.getElem?_append_right (Nat.le_refl _)]
    simp [front]

end Source

/-! Agreement of a procedure with a reading -/

/-- The place stays before the first end token or reaches it, and no loop is stuck. -/
def Event.Within (stop : Nat) : Event → Prop
  | .moved place => place ≤ stop
  | .stalled => False

theorem Event.Within.moved {stop : Nat} {event : Event} (h : event.Within stop) :
    ∃ place ≤ stop, event = .moved place := by
  cases event with
  | moved place => exact ⟨place, h, rfl⟩
  | stalled => cases h

def Ends {α : Type} (s : Source) :
    Except Failure (α × List Token) → Except Halt (α × Nat) → Prop
  | .ok (a, vs), .ok (b, place) => b = a ∧ s.Left place vs
  | .error failure, .error halt =>
    halt = s.reporter.halt (Program.faultOf (Program.finish s.tokens) failure)
  | _, _ => False

namespace Ends

variable {α : Type} {s : Source} {x : Except Failure (α × List Token)} {r : Except Halt (α × Nat)}

theorem result (h : Ends s x r) :
    r.map Prod.fst = ((x.map Prod.fst).mapError
      (Program.faultOf (Program.finish s.tokens))).mapError s.reporter.halt := by
  cases x with
  | error failure =>
    cases r with
    | ok found => cases h
    | error halt => exact congrArg Except.error h
  | ok last =>
    cases r with
    | error halt => cases h
    | ok found => exact congrArg Except.ok h.1

theorem ne_exhausted (h : Ends s x r) : r ≠ .error .exhausted := by
  rintro rfl
  cases x with
  | error failure => exact Reporter.halt_ne_exhausted _ h.symm
  | ok last => cases h

theorem left {a : α} {place : Nat} (h : Ends s x (.ok (a, place))) :
    ∃ b vs, x = .ok (b, vs) ∧ s.Left place vs := by
  cases x with
  | error failure => cases h
  | ok last => exact ⟨last.1, last.2, rfl, h.2⟩

end Ends

/-- From where `us` is left, a procedure ends like a reading of `us`. -/
def Agrees {α : Type} (s : Source) (us : List Token) (m : Proc α)
    (x : Except Failure (α × List Token)) : Prop :=
  ∀ place, s.Left place us →
    (∀ event ∈ (m.run s place).log, event.Within s.stop) ∧ Ends s x (m.run s place).result

namespace Proc

variable {α β : Type} {s : Source} {us : List Token} {place : Nat}

@[simp] theorem run_pure (a : α) : (pure a : Proc α).run s place = ⟨.ok (a, place), []⟩ := rfl

theorem run_bind_of_ok {m : Proc α} {f : α → Proc β} {a : α} {place' : Nat} {log : List Event}
    (h : m.run s place = ⟨.ok (a, place'), log⟩) :
    (m >>= f).run s place =
      ⟨((f a).run s place').result, log ++ ((f a).run s place').log⟩ := by
  change (m.bind f).run s place = _
  simp only [Proc.bind, h]

theorem run_bind_of_error {m : Proc α} {f : α → Proc β} {halt : Halt}
    (h : (m.run s place).result = .error halt) :
    (m >>= f).run s place = ⟨.error halt, (m.run s place).log⟩ := by
  change (m.bind f).run s place = _
  simp only [Proc.bind, h]

theorem run_current (left : s.Left place us) :
    current.run s place = ⟨.ok (s.front us, place), []⟩ := by
  have le := left.le
  have lt := s.stop_lt
  have inside : min (place + 0) (s.tokens.length - 1) = place := by omega
  have found := left.get
  rw [List.getElem?_eq_some_iff] at found
  simp only [current, ahead, inside, found.2]

theorem run_advance {t : Token} {rest : List Token} (left : s.Left place (t :: rest)) :
    advance.run s place = ⟨.ok ((), place + 1), [.moved (place + 1)]⟩ := by
  rw [advance, run_bind_of_ok (run_current left), s.front_cons, if_neg left.kind]
  rfl

end Proc

namespace Agrees

variable {s : Source} {α β : Type} {us : List Token}

theorem pure (a : α) : Agrees s us (Pure.pure a) (.ok (a, us)) := by
  intro place left
  refine ⟨?_, rfl, left⟩
  intro event h
  cases h

theorem bind {m : Proc α} {f : α → Proc β} {x : Except Failure (α × List Token)}
    {k : α × List Token → Except Failure (β × List Token)} (h : Agrees s us m x)
    (next : ∀ a vs, x = .ok (a, vs) → Agrees s vs (f a) (k (a, vs))) :
    Agrees s us (m >>= f) (x >>= k) := by
  intro place left
  obtain ⟨log, ends⟩ := h place left
  cases found : (m.run s place).result with
  | error halt =>
    rw [Proc.run_bind_of_error found]
    rw [found] at ends
    cases x with
    | error failure => exact ⟨log, ends⟩
    | ok read => cases ends
  | ok last =>
    obtain ⟨b, place'⟩ := last
    have whole : m.run s place = ⟨.ok (b, place'), (m.run s place).log⟩ := by rw [← found]
    rw [Proc.run_bind_of_ok whole]
    rw [found] at ends
    cases x with
    | error failure => cases ends
    | ok read =>
      obtain ⟨a, vs⟩ := read
      obtain ⟨rfl, left'⟩ := ends
      obtain ⟨log', ends'⟩ := next b vs rfl place' left'
      exact ⟨List.forall_mem_append.mpr ⟨log, log'⟩, ends'⟩

theorem look {m : Proc α} {f : α → Proc β} {a : α} {x : Except Failure (β × List Token)}
    (same : ∀ place, s.Left place us → m.run s place = ⟨.ok (a, place), []⟩)
    (h : Agrees s us (f a) x) : Agrees s us (m >>= f) x := by
  intro place left
  rw [Proc.run_bind_of_ok (same place left)]
  exact h place left

theorem step {m : Proc α} {f : α → Proc β} {a : α} {t : Token} {rest : List Token}
    {x : Except Failure (β × List Token)}
    (same : ∀ place, s.Left place (t :: rest) →
      m.run s place = ⟨.ok (a, place + 1), [.moved (place + 1)]⟩)
    (h : Agrees s rest (f a) x) : Agrees s (t :: rest) (m >>= f) x := by
  intro place left
  rw [Proc.run_bind_of_ok (same place left)]
  obtain ⟨log, ends⟩ := h (place + 1) left.next
  exact ⟨List.forall_mem_cons.mpr ⟨left.next.le, log⟩, ends⟩

theorem current {f : Token → Proc β} {x : Except Failure (β × List Token)}
    (h : Agrees s us (f (s.front us)) x) : Agrees s us (Proc.current >>= f) x :=
  look (fun _ left => Proc.run_current left) h

theorem advance {f : Unit → Proc β} {t : Token} {rest : List Token}
    {x : Except Failure (β × List Token)} (h : Agrees s rest (f ()) x) :
    Agrees s (t :: rest) (Proc.advance >>= f) x :=
  step (fun _ left => Proc.run_advance left) h

theorem raise {code : Code} {expected : Option String} (cause : Cause) (same : cause.code = code)
    (names : cause.expected? = expected) :
    Agrees s us (Proc.current >>= fun t => (Proc.raise code expected t : Proc α))
      (.error ⟨cause, us⟩) := by
  have told (t : Token) : s.reporter.raise code expected t.position t.lexeme =
      s.reporter.halt ⟨cause, t.position, t.lexeme⟩ :=
    Reporter.raise_eq_halt ⟨cause, t.position, t.lexeme⟩ same names
  refine current fun place left => ⟨fun event h => (by cases h), (told _).trans ?_⟩
  cases us with
  | nil =>
    have quiet : (s.front []).lexeme = "" := by
      simp [Token.lexeme, Kind.isLayout]
    rw [s.front_nil_position, quiet]
    rfl
  | cons t rest => rfl

theorem fail {code : Code} (cause : Cause) (same : cause.code = code)
    (names : cause.expected? = none) :
    Agrees s us (Proc.fail code : Proc α) (.error ⟨cause, us⟩) := raise cause same names

theorem miss {code : Code} {expected : String} (cause : Cause) (same : cause.code = code)
    (names : cause.expected? = some expected) :
    Agrees s us (Proc.miss code expected : Proc α) (.error ⟨cause, us⟩) := raise cause same names

theorem front_ne {kind : Kind} (lacks : Lacks kind us) (text : kind ≠ .layout .eof) :
    (s.front us).kind ≠ kind := by
  cases us with
  | nil =>
    simpa using text.symm
  | cons t rest => exact lacks_cons.mp lacks

theorem eat_cons {f : Bool → Proc β} {t : Token} {rest : List Token} {kind : Kind}
    {x : Except Failure (β × List Token)} (same : t.kind = kind)
    (h : Agrees s rest (f true) x) : Agrees s (t :: rest) (Proc.eat kind >>= f) x := by
  refine step (fun place left => ?_) h
  rw [Proc.eat, Proc.run_bind_of_ok (Proc.run_current left), s.front_cons, if_pos same,
    Proc.run_bind_of_ok (Proc.run_advance left)]
  rfl

theorem eat_lacks {f : Bool → Proc β} {kind : Kind} {x : Except Failure (β × List Token)}
    (lacks : Lacks kind us) (text : kind ≠ .layout .eof) (h : Agrees s us (f false) x) :
    Agrees s us (Proc.eat kind >>= f) x := by
  refine look (fun place left => ?_) h
  rw [Proc.eat, Proc.run_bind_of_ok (Proc.run_current left), if_neg (front_ne lacks text)]
  rfl

theorem expect_cons {kind : Kind} (code : Code) (expected : String) {t : Token}
    (same : t.kind = kind) (rest : List Token) :
    Agrees s (t :: rest) (Proc.expect kind code expected) (.ok (t, rest)) := by
  refine current ?_
  rw [s.front_cons, if_pos same]
  exact advance (pure t)

theorem expect_lacks {kind : Kind} {code : Code} {expected : String} (cause : Cause)
    (lacks : Lacks kind us) (text : kind ≠ .layout .eof) (same : cause.code = code)
    (names : cause.expected? = some expected) :
    Agrees s us (Proc.expect kind code expected) (.error ⟨cause, us⟩) := by
  refine current ?_
  rw [if_neg (front_ne lacks text)]
  exact miss cause same names

theorem expect {kind : Kind} {cause : Cause} {code : Code} {expected : String}
    (text : kind ≠ .layout .eof) (same : cause.code = code)
    (names : cause.expected? = some expected) :
    Agrees s us (Proc.expect kind code expected) (outcome (Grammar.expect kind cause us)) := by
  rcases lacks_or_cons kind us with lacks | ⟨t, rest, rfl, found⟩
  · rw [outcome_expect_lacks cause lacks]
    exact expect_lacks cause lacks text same names
  · rw [outcome_expect cause found]
    exact expect_cons code expected found rest

theorem eat_skip {f : Bool → Proc β} {kind : Kind} {x : Except Failure (β × List Token)}
    (text : kind ≠ .layout .eof) (h : ∀ b, Agrees s (Grammar.skip kind us) (f b) x) :
    Agrees s us (Proc.eat kind >>= f) x := by
  cases us with
  | nil => exact eat_lacks (lacks_nil kind) text (h false)
  | cons t rest =>
    by_cases same : t.kind = kind
    · refine eat_cons same ?_
      have next := h true
      rwa [Grammar.skip, if_pos same] at next
    · refine eat_lacks (lacks_cons.mpr same) text ?_
      have next := h false
      rwa [Grammar.skip, if_neg same] at next

theorem andThen {m : Proc α} {f : α → Proc β} {a : α} {vs : List Token}
    {x : Except Failure (β × List Token)} (h : Agrees s us m (.ok (a, vs)))
    (next : Agrees s vs (f a) x) : Agrees s us (m >>= f) x := by
  refine bind (k := fun _ => x) h ?_
  rintro b ws ⟨⟩
  exact next

theorem halt {m : Proc α} {f : α → Proc β} {failure : Failure}
    (h : Agrees s us m (.error failure)) : Agrees s us (m >>= f) (.error failure) := by
  refine bind (k := fun _ => .error failure) h ?_
  rintro b ws ⟨⟩

theorem watched {m : Proc α} {stuck go : α → Proc β} {x : Except Failure (α × List Token)}
    {k : α × List Token → Except Failure (β × List Token)} (h : Agrees s us m x)
    (less : ∀ a vs, x = .ok (a, vs) → vs.length < us.length)
    (next : ∀ a vs, x = .ok (a, vs) → Agrees s vs (go a) (k (a, vs))) :
    Agrees s us (Proc.here >>= fun before => m >>= fun a => Proc.here >>= fun behind =>
      if behind = before then stuck a else go a) (x >>= k) := by
  intro place left
  rw [Proc.run_bind_of_ok (show Proc.here.run s place = ⟨.ok (place, place), []⟩ from rfl)]
  refine bind h (fun a vs read => ?_) place left
  intro place' left'
  rw [Proc.run_bind_of_ok (show Proc.here.run s place' = ⟨.ok (place', place'), []⟩ from rfl)]
  have moved : place' ≠ place := by
    have sum := left.2
    have sum' := left'.2
    have lt := less a vs read
    omega
  rw [if_neg moved]
  exact next a vs read place' left'

end Agrees

/-! What each procedure reads -/

def Call.reader : {α : Type} → Call α → Reader α
  | _, .skipNewlines => Reader.newlines
  | _, .expression level => Reader.expression level
  | _, .operations c left => Reader.operations c left
  | _, .accesses object => Reader.accesses object
  | _, .primary => Reader.primary
  | _, .arguments => Reader.arguments
  | _, .entries => Reader.entries
  | _, .statement => Reader.statement
  | _, .lineOfExpressions => Reader.lineOfExpressions
  | _, .parameters => Reader.parameters
  | _, .block => Reader.block
  | _, .blockBody => Reader.blockBody
  | _, .clauses => Reader.clauses
  | _, .statements => Reader.statements

/-- The order in which procedures call one another before they take a token. -/
def Call.rank : {α : Type} → Call α → Nat
  | _, .expression level => level.rank
  | _, .arguments | _, .entries => 10
  | _, .lineOfExpressions => 11
  | _, .block => 12
  | _, .statement => 13
  | _, .blockBody | _, .statements => 14
  | _, _ => 0

theorem Call.rank_lt {α : Type} (c : Call α) : c.rank < 16 := by
  cases c with
  | expression level => exact Nat.lt_of_le_of_lt level.rank_le (by decide)
  | _ => simp only [Call.rank, Nat.reduceLT]

/-- How deep calls are nested below a procedure, at most. -/
def Call.depth {α : Type} (c : Call α) (us : List Token) : Nat := us.length * 16 + c.rank

/-- Procedures do what they should as long as their calls are not nested too deep. -/
def Faithful (s : Source) (fuel : Nat) (call : {α : Type} → Call α → Proc α) : Prop :=
  ∀ {α : Type} (c : Call α) (us : List Token), c.depth us < fuel →
    Agrees s us (call c) (c.reader us)

namespace Faithful

variable {s : Source} {fuel : Nat} {call : {α : Type} → Call α → Proc α} {α β : Type}
  {us vs : List Token} {t : Token} {c : Call α}

theorem first (h : Faithful s fuel call) (enough : c.depth us ≤ fuel) (d : Call β)
    (rank : d.rank < c.rank) : Agrees s us (call d) (d.reader us) :=
  h d us (by simp only [Call.depth] at enough ⊢; omega)

theorem later (h : Faithful s fuel call) (enough : c.depth (t :: us) ≤ fuel) (d : Call β)
    (le : vs.length ≤ us.length) : Agrees s vs (call d) (d.reader vs) := by
  have rank := d.rank_lt
  refine h d vs ?_
  simp only [Call.depth, List.length_cons] at enough ⊢
  omega

end Faithful

end Miaou.Cursor
