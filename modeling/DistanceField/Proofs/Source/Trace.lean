import DistanceField.Proofs.Number.Bits
import DistanceField.Proofs.Source.Grammar

/-! What each step of the parser reads, with all places: the tokens it takes, what it looks at behind
them, and the tree it returns. All that the parser accepts is read by such a run. -/
namespace DistanceField.Parser

open Grammar

namespace Outcome

variable {α β : Type}

theorem andThen_ok {o : Outcome α} {next : α → List Token → Outcome β} {b : β} {rest : List Token}
    (accepted : (o.andThen next).result = .ok (b, rest)) :
    ∃ a ts, o.result = .ok (a, ts) ∧ (next a ts).result = .ok (b, rest) := by
  unfold andThen at accepted
  split at accepted
  · cases accepted
  · rename_i a ts first
    exact ⟨a, ts, first, accepted⟩

theorem done_ok {a b : α} {ts rest : List Token} (accepted : (done a ts).result = .ok (b, rest)) :
    a = b ∧ ts = rest := by
  cases accepted
  exact ⟨rfl, rfl⟩

theorem fail_ok {trouble : Trouble} {span : Interval} {b : α} {rest : List Token}
    (accepted : (fail trouble span).result = .ok (b, rest)) : False := by
  cases accepted

end Outcome

open Outcome

section Steps

variable {s : Setting}

theorem peek_some (ends : s.finish.kind = .eof) {ts : List Token} (more : (s.peek ts).kind ≠ .eof) :
    ∃ t rest, ts = t :: rest := by
  cases ts with
  | nil => exact absurd ends more
  | cons t rest => exact ⟨t, rest, rfl⟩

theorem peek_next (ends : s.finish.kind = .eof) {ts : List Token} {k : Kind} (is : (s.peek ts).kind = k)
    (more : k ≠ .eof) : ∃ t rest, ts = t :: rest ∧ t.kind = k := by
  obtain ⟨t, rest, rfl⟩ := peek_some ends (is ▸ more)
  exact ⟨t, rest, rfl, is⟩

theorem peek_cons (t : Token) (ts : List Token) : s.peek (t :: ts) = t := rfl

theorem peek_append (us rest : List Token) :
    (s.peek (us ++ rest)).kind = ahead us (s.peek rest).kind := by
  cases us <;> rfl

theorem assign_name (f : Function) (n : Bytes) (e : Node) : (f.assign n e).name = f.name := by
  unfold Function.assign
  dsimp only
  split <;> rfl

theorem assign_operands (f : Function) (n : Bytes) (e : Node) :
    (f.assign n e).operands = f.operands := by
  unfold Function.assign
  dsimp only
  split <;> rfl

theorem assign_ok {f g : Function} {name : Token} {e : Node} {ts rest : List Token}
    (accepted : (assign s f name e ts).result = .ok (g, rest)) :
    g = (f.assign name.value e).cover e.span ∧ rest = ts ∧
      (s.strict = true → ¬ (f.param? name.value).isSome = true) := by
  unfold assign at accepted
  dsimp only at accepted
  split at accepted
  · split at accepted
    · exact (fail_ok accepted).elim
    · rename_i lax
      cases accepted
      exact ⟨rfl, rfl, fun strict => absurd strict lax⟩
  · rename_i fresh
    cases accepted
    exact ⟨rfl, rfl, fun _ => fresh⟩

theorem parameters_close {n : Nat} {ts rest : List Token} {f g : Function}
    (is : (s.peek ts).kind = .rparen) (accepted : (parameters s n f ts).result = .ok (g, rest)) :
    g = f.cover (s.peek ts).span ∧ rest = ts.tail := by
  cases n with
  | zero => exact (fail_ok accepted).elim
  | succ n =>
    rw [parameters, is] at accepted
    cases accepted
    exact ⟨rfl, rfl⟩

theorem number_plain {t : Token} {rest : List Token} (digits : t.kind = .number) :
    number s (t :: rest) =
      done (.number (Read.double t.value).value (t.span.union t.span)) rest := by
  have unsigned : (t.kind == .plus || t.kind == .minus) = false := by
    rw [digits]
    rfl
  have unit : signOf .number * (Read.double t.value).value = (Read.double t.value).value :=
    Double.scale_one _
  unfold number
  simp only [peek_cons, unsigned, Bool.false_eq_true, if_false]
  rw [if_pos (beq_iff_eq.mpr digits), digits, unit, List.tail_cons]

theorem number_signed {t n : Token} {rest : List Token} (sign : t.kind = .plus ∨ t.kind = .minus)
    (digits : n.kind = .number) :
    number s (t :: n :: rest) =
      done (.number (signOf t.kind * (Read.double n.value).value) (t.span.union n.span)) rest := by
  have signed : (t.kind == .plus || t.kind == .minus) = true := by
    rcases sign with is | is <;> rw [is] <;> rfl
  unfold number
  simp only [peek_cons, signed, if_true, List.tail_cons]
  rw [if_pos (beq_iff_eq.mpr digits)]

end Steps

inductive Task where
  | function
  | arguments (f : Function)
  | block (f : Function)
  | parameters (f : Function)
  | operands (f : Function)
  | value (level : Level)
  | chain (level : Level) (l : Node)

def tighter : Level → Level
  | .sum => .product
  | .product | .atom => .atom

def Binds : Level → Kind → Prop
  | .sum, k => k = .plus ∨ k = .minus
  | .product, k => k = .star ∨ k = .slash
  | .atom, _ => False

/-- What stands between a parameter and the rest of its list, which starts with a token of kind `k`:
a comma, or nothing before the end. -/
inductive Separates (k : Kind) : List Token → Prop where
  | none (ends : k = .rparen) : Separates k []
  | comma {t : Token} (is : t.kind = .comma) : Separates k [t]

def named (t : Token) : Function := .mk t.value [] [] t.span

/-- A step reads some tokens before a token of kind `next`, and returns a tree. -/
inductive Run (strict : Bool) : Task → (next : Kind) → List Token → Node → Prop where
  | function {next : Kind} {us vs : List Token} {name : Token} {f g : Function}
      (is : name.kind = .identifier)
      (arguments : Run strict (.arguments (named name)) (ahead vs next) us (.function f))
      (block : Run strict (.block f) next vs (.function g)) :
      Run strict .function next (name :: (us ++ vs)) (.function g)
  | bare {next : Kind} {f : Function} (alone : next ≠ .lparen) :
      Run strict (.arguments f) next [] (.function f)
  | called {next : Kind} {l : Token} {us : List Token} {f g : Function} (opens : l.kind = .lparen)
      (list : Run strict (.parameters f) next us (.function g)) :
      Run strict (.arguments f) next (l :: us) (.function g)
  | plain {next : Kind} {f : Function} (alone : next ≠ .lbrace) :
      Run strict (.block f) next [] (.function f)
  | braces {next : Kind} {l : Token} {us : List Token} {f g : Function} (opens : l.kind = .lbrace)
      (list : Run strict (.operands f) next us (.function g)) :
      Run strict (.block f) next (l :: us) (.function g)
  | closed {next : Kind} {r : Token} {f : Function} (closes : r.kind = .rparen) :
      Run strict (.parameters f) next [r] (.function (f.cover r.span))
  | given {next : Kind} {name eq : Token} {us sep vs : List Token} {f g : Function} {e : Node}
      (is : name.kind = .identifier) (equals : eq.kind = .assign)
      (value : Run strict (.value .sum) (ahead (sep ++ vs) next) us e)
      (arithmetic : e.function? = none)
      (fresh : strict = true → ¬ (f.param? name.value).isSome = true)
      (separates : Separates (ahead vs next) sep)
      (rest : Run strict (.parameters ((f.assign name.value e).cover e.span)) next vs (.function g)) :
      Run strict (.parameters f) next (name :: eq :: (us ++ (sep ++ vs))) (.function g)
  | ended {next : Kind} {r : Token} {f : Function} (closes : r.kind = .rbrace) :
      Run strict (.operands f) next [r] (.function (f.cover r.span))
  | operand {next : Kind} {us vs : List Token} {f g h : Function}
      (first : Run strict (.value .sum) (ahead vs next) us (.function g))
      (rest : Run strict (.operands ((f.addOperand g).cover g.span)) next vs (.function h)) :
      Run strict (.operands f) next (us ++ vs) (.function h)
  | value {level : Level} {next : Kind} {us vs : List Token} {l e : Node} (loose : level ≠ .atom)
      (first : Run strict (.value (tighter level)) (ahead vs next) us l)
      (rest : Run strict (.chain level l) next vs e) :
      Run strict (.value level) next (us ++ vs) e
  | stop {level : Level} {next : Kind} {e : Node} (other : ¬ Binds level next) :
      Run strict (.chain level e) next [] e
  | operate {level : Level} {next : Kind} {op : Token} {us vs : List Token} {l r e : Node}
      (sign : Binds level op.kind)
      (right : Run strict (.value (tighter level)) (ahead vs next) us r)
      (rest : Run strict (.chain level (operator op l r)) next vs e) :
      Run strict (.chain level l) next (op :: (us ++ vs)) e
  | number {next : Kind} {t : Token} (digits : t.kind = .number) :
      Run strict (.value .atom) next [t] (.number (Read.double t.value).value (t.span.union t.span))
  | signed {next : Kind} {t n : Token} (sign : t.kind = .plus ∨ t.kind = .minus)
      (digits : n.kind = .number) :
      Run strict (.value .atom) next [t, n]
        (.number (signOf t.kind * (Read.double n.value).value) (t.span.union n.span))
  | group {next : Kind} {l r : Token} {us : List Token} {e : Node} (opens : l.kind = .lparen)
      (inner : Run strict (.value .sum) .rparen us e) (closes : r.kind = .rparen) :
      Run strict (.value .atom) next (l :: (us ++ [r])) e
  | single {next : Kind} {us : List Token} {f : Function}
      (function : Run strict .function next us (.function f)) :
      Run strict (.value .atom) next us (.function f)

def asNode (o : Outcome Function) : Outcome Node := o.andThen fun f ts => done (.function f) ts

/-- What the parser does for a task. -/
def Task.outcome (s : Setting) (n : Nat) : Task → List Token → Outcome Node
  | .function, ts => asNode (Parser.function s n ts)
  | .arguments f, ts => asNode
    (if (s.peek ts).kind == .lparen then Parser.parameters s n f ts.tail else done f ts)
  | .block f, ts => asNode
    (if (s.peek ts).kind == .lbrace then Parser.operands s n f ts.tail else done f ts)
  | .parameters f, ts => asNode (Parser.parameters s n f ts)
  | .operands f, ts => asNode (Parser.operands s n f ts)
  | .value .sum, ts => expression s n ts
  | .value .product, ts => term s n ts
  | .value .atom, ts => factor s n ts
  | .chain .sum l, ts => sumFrom s n l ts
  | .chain .product l, ts => productFrom s n l ts
  | .chain .atom l, ts => done l ts

section Shape

variable {strict : Bool} {task : Task} {next : Kind} {us : List Token} {e : Node}

theorem Binds.ne {level : Level} {k other : Kind} (binds : Binds level k)
    (outside : other ∉ [Kind.plus, .minus, .star, .slash]) : k ≠ other := by
  rintro rfl
  cases level with
  | sum | product => rcases binds with rfl | rfl <;> simp at outside
  | atom => exact binds

theorem Binds.proper {level : Level} {k : Kind} (binds : Binds level k) : k ≠ .eof :=
  binds.ne (by decide)

theorem Separates.clean {k : Kind} {sep : List Token} (separates : Separates k sep) : Clean sep := by
  cases separates with
  | none => exact clean_nil
  | comma is => exact clean_cons is nofun clean_nil

theorem Run.clean (run : Run strict task next us e) : Clean us := by
  induction run with
  | function is _ _ iha ihb => exact clean_cons is nofun (iha.append ihb)
  | bare | plain | stop => exact clean_nil
  | called opens _ ih | braces opens _ ih => exact clean_cons opens nofun ih
  | closed closes | ended closes => exact clean_cons closes nofun clean_nil
  | given is equals _ _ _ separates _ ihv ihr =>
    have behind := separates.clean.append ihr
    exact clean_cons is nofun (clean_cons equals nofun (ihv.append behind))
  | operand _ _ ihf ihr => exact ihf.append ihr
  | value _ _ _ ihf ihr => exact ihf.append ihr
  | operate sign _ _ ihr ihc => exact clean_cons rfl sign.proper (ihr.append ihc)
  | number digits => exact clean_cons digits nofun clean_nil
  | signed sign digits =>
    rcases sign with is | is <;> exact clean_cons is nofun (clean_cons digits nofun clean_nil)
  | group opens _ closes ih =>
    exact clean_cons opens nofun (ih.append (clean_cons closes nofun clean_nil))
  | single _ ih => exact ih

def Task.Starts : Task → List Token → Prop
  | .function, us | .value _, us => ∃ t rest, us = t :: rest ∧ t.kind ≠ .rbrace
  | .parameters _, us | .operands _, us => ∃ t rest, us = t :: rest
  | .arguments _, _ | .block _, _ | .chain .., _ => True

theorem Run.starts (run : Run strict task next us e) : task.Starts us := by
  induction run with
  | function is => exact ⟨_, _, rfl, by rw [is]; nofun⟩
  | bare | called | plain | braces | stop | operate => trivial
  | closed | given | ended => exact ⟨_, _, rfl⟩
  | operand _ _ ihf =>
    obtain ⟨t, rest, rfl, -⟩ := ihf
    exact ⟨t, _, rfl⟩
  | value _ _ _ ihf =>
    obtain ⟨t, rest, rfl, other⟩ := ihf
    exact ⟨t, _, rfl, other⟩
  | number digits => exact ⟨_, _, rfl, by rw [digits]; nofun⟩
  | signed sign =>
    refine ⟨_, _, rfl, ?_⟩
    rcases sign with is | is <;> rw [is] <;> nofun
  | group opens => exact ⟨_, _, rfl, by rw [opens]; nofun⟩
  | single _ ih => exact ih

/-- What has been read before anything can also be read before the end of input. -/
theorem Run.before_end (run : Run strict task next us e) : Run strict task .eof us e := by
  have before {vs : List Token} {next : Kind} {task : Task} {us : List Token} {e : Node}
      (run : Run strict task (ahead vs next) us e) (ends : Run strict task .eof us e) :
      Run strict task (ahead vs .eof) us e := by
    cases vs with
    | nil => exact ends
    | cons v vs => exact run
  induction run with
  | function is arguments _ iha ihb => exact .function is (before arguments iha) ihb
  | bare => exact .bare nofun
  | called opens _ ih => exact .called opens ih
  | plain => exact .plain nofun
  | braces opens _ ih => exact .braces opens ih
  | closed closes => exact .closed closes
  | @given next name eq us sep vs f g e is equals value arithmetic fresh separates rest ihv ihr =>
    obtain ⟨v, vs, rfl⟩ := rest.starts
    exact .given is equals (before value ihv) arithmetic fresh separates ihr
  | ended closes => exact .ended closes
  | operand first _ ihf ihr => exact .operand (before first ihf) ihr
  | value loose first _ ihf ihr => exact .value loose (before first ihf) ihr
  | stop => exact .stop fun binds => binds.proper rfl
  | operate sign right _ ihr ihc => exact .operate sign (before right ihr) ihc
  | number digits => exact .number digits
  | signed sign digits => exact .signed sign digits
  | group opens inner closes => exact .group opens inner closes
  | single _ ih => exact .single ih

end Shape

section Tracing

variable {s : Setting} {n : Nat} {task : Task}

/-- All that a step accepts is read by a run. -/
def Traced (s : Setting) (n : Nat) (task : Task) : Prop :=
  ∀ ⦃ts rest : List Token⦄ ⦃e : Node⦄, (task.outcome s n ts).result = .ok (e, rest) →
    ∃ used, ts = used ++ rest ∧ Run s.strict task (s.peek rest).kind used e

theorem asNode_ok {o : Outcome Function} {e : Node} {rest : List Token}
    (accepted : (asNode o).result = .ok (e, rest)) :
    ∃ f, e = .function f ∧ o.result = .ok (f, rest) := by
  obtain ⟨f, ts, read, last⟩ := andThen_ok accepted
  obtain ⟨rfl, rfl⟩ := done_ok last
  exact ⟨f, rfl, read⟩

theorem asNode_fail {trouble : Trouble} {span : Interval} {e : Node} {rest : List Token}
    (accepted : (asNode (fail trouble span)).result = .ok (e, rest)) : False := by
  cases accepted

theorem asNode_result {o : Outcome Function} {f : Function} {rest : List Token}
    (accepted : o.result = .ok (f, rest)) : (asNode o).result = .ok (.function f, rest) := by
  rw [asNode, andThen, accepted]
  rfl

theorem number_traced (ends : s.finish.kind = .eof) {ts rest : List Token} {e : Node}
    (accepted : (number s ts).result = .ok (e, rest)) :
    ∃ used, ts = used ++ rest ∧ Run s.strict (.value .atom) (s.peek rest).kind used e := by
  by_cases sign : (s.peek ts).kind = .plus ∨ (s.peek ts).kind = .minus
  · obtain ⟨t, ts, rfl⟩ := peek_some ends (by rcases sign with is | is <;> rw [is] <;> nofun)
    have signed : (t.kind == .plus || t.kind == .minus) = true := by simpa [peek_cons] using sign
    by_cases more : (s.peek ts).kind = .number
    · obtain ⟨d, ts, rfl, digits⟩ := peek_next ends more (by decide)
      rw [peek_cons] at sign
      rw [number_signed sign digits] at accepted
      obtain ⟨rfl, rfl⟩ := done_ok accepted
      exact ⟨[t, d], rfl, .signed sign digits⟩
    · simp only [number, peek_cons, signed, if_true, List.tail_cons] at accepted
      rw [if_neg (by simpa using more)] at accepted
      exact (fail_ok accepted).elim
  · have unsigned : ((s.peek ts).kind == .plus || (s.peek ts).kind == .minus) = false := by
      simpa using sign
    by_cases more : (s.peek ts).kind = .number
    · obtain ⟨t, ts, rfl, digits⟩ := peek_next ends more (by decide)
      rw [number_plain digits] at accepted
      obtain ⟨rfl, rfl⟩ := done_ok accepted
      exact ⟨[t], rfl, .number digits⟩
    · simp only [number, unsigned, Bool.false_eq_true, if_false] at accepted
      rw [if_neg (by simpa using more)] at accepted
      exact (fail_ok accepted).elim

variable (ends : s.finish.kind = .eof)

include ends

/-- What may follow a name is a list between its own pair of tokens, or nothing. -/
theorem list_traced {task list : Task} {f : Function} {k : Kind}
    {read : List Token → Outcome Function} (proper : k ≠ .eof)
    (steps : ∀ ts, task.outcome s n ts =
      asNode (if (s.peek ts).kind == k then read ts.tail else done f ts))
    (inner : ∀ ts, list.outcome s n ts = asNode (read ts)) (traced : Traced s n list)
    (opened : ∀ {l next us g}, l.kind = k → Run s.strict list next us (.function g) →
      Run s.strict task next (l :: us) (.function g))
    (absent : ∀ {next}, next ≠ k → Run s.strict task next [] (.function f)) : Traced s n task := by
  intro ts rest e found
  rw [steps] at found
  obtain ⟨g, rfl, accepted⟩ := asNode_ok found
  split at accepted
  · rename_i is
    obtain ⟨l, ts, rfl, opens⟩ := peek_next ends (eq_of_beq is) proper
    have more := asNode_result accepted
    rw [← inner] at more
    obtain ⟨used, whole, run⟩ := traced more
    rw [List.tail_cons] at whole
    exact ⟨l :: used, congrArg (l :: ·) whole, opened opens run⟩
  · rename_i other
    obtain ⟨rfl, rfl⟩ := done_ok accepted
    exact ⟨[], rfl, absent (by simpa using other)⟩

theorem arguments_traced {f : Function} (list : Traced s n (.parameters f)) :
    Traced s n (.arguments f) :=
  list_traced ends (by decide) (fun _ => rfl) (fun _ => rfl) list .called .bare

theorem block_traced {f : Function} (list : Traced s n (.operands f)) : Traced s n (.block f) :=
  list_traced ends (by decide) (fun _ => rfl) (fun _ => rfl) list .braces .plain

variable (all : ∀ task, Traced s n task)

include all

theorem function_traced : Traced s (n + 1) .function := by
  intro ts rest e found
  obtain ⟨g, rfl, accepted⟩ := asNode_ok found
  rw [Parser.function] at accepted
  dsimp only at accepted
  split at accepted
  · exact (fail_ok accepted).elim
  rename_i is
  obtain ⟨name, ts, rfl, word⟩ := peek_next ends (not_not.mp (bne_iff_ne.not.mp is)) (by decide)
  obtain ⟨f, mid, called, accepted⟩ := andThen_ok accepted
  obtain ⟨us, whole, first⟩ := all (.arguments (named name)) (asNode_result called)
  obtain ⟨vs, more, second⟩ := all (.block f) (asNode_result accepted)
  rw [more, peek_append] at first
  rw [List.tail_cons, more] at whole
  exact ⟨name :: (us ++ vs), by rw [whole]; simp, .function word first second⟩

theorem parameters_traced (f : Function) : Traced s (n + 1) (.parameters f) := by
  intro ts rest e found
  obtain ⟨g, rfl, accepted⟩ := asNode_ok found
  by_cases closed : (s.peek ts).kind = .rparen
  · obtain ⟨r, ts, rfl, closes⟩ := peek_next ends closed (by decide)
    obtain ⟨rfl, rfl⟩ := parameters_close closed accepted
    exact ⟨[r], rfl, .closed closes⟩
  rw [Parser.parameters] at accepted
  simp only [beq_iff_eq, bne_iff_ne, ne_eq, if_neg closed] at accepted
  split at accepted
  · exact (fail_ok accepted).elim
  rename_i is
  split at accepted
  · exact (fail_ok accepted).elim
  rename_i has
  obtain ⟨name, ts, rfl, word⟩ := peek_next ends (not_not.mp is) (by decide)
  obtain ⟨eq, ts, rfl, equals⟩ := peek_next ends (not_not.mp has) (by decide)
  simp only [peek_cons, List.tail_cons] at accepted
  obtain ⟨e, mid, value, checked⟩ := andThen_ok accepted
  obtain ⟨us, whole, reads⟩ := all (.value .sum) value
  split at checked
  · exact (fail_ok checked).elim
  rename_i arithmetic
  obtain ⟨h, mid', assigned, goes⟩ := andThen_ok checked
  obtain ⟨rfl, rfl, fresh⟩ := assign_ok assigned
  have follows := all (.parameters ((f.assign name.value e).cover e.span))
  -- both ways go on with the rest of the list, one of them behind a comma
  split at goes
  · rename_i closed
    obtain ⟨vs, more, run⟩ := follows (asNode_result goes)
    rw [more, peek_append] at closed reads
    refine ⟨name :: eq :: (us ++ ([] ++ vs)), ?_, ?_⟩
    · rw [whole, more]
      simp
    · exact .given word equals reads arithmetic fresh (.none closed) run
  · split at goes
    · rename_i is
      obtain ⟨sep, mid, rfl, comma⟩ := peek_next ends is (by decide)
      obtain ⟨vs, more, run⟩ := follows (asNode_result goes)
      rw [List.tail_cons] at more
      refine ⟨name :: eq :: (us ++ ([sep] ++ vs)), ?_, ?_⟩
      · rw [whole, more]
        simp
      · exact .given word equals reads arithmetic fresh (.comma comma) run
    · exact (fail_ok goes).elim

theorem operands_traced (f : Function) : Traced s (n + 1) (.operands f) := by
  intro ts rest e found
  obtain ⟨g, rfl, accepted⟩ := asNode_ok found
  rw [Parser.operands] at accepted
  split at accepted
  · rename_i is
    obtain ⟨r, ts, rfl, closes⟩ := peek_next ends (eq_of_beq is) (by decide)
    obtain ⟨rfl, rfl⟩ := done_ok accepted
    exact ⟨[r], rfl, .ended closes⟩
  split at accepted
  · exact (fail_ok accepted).elim
  obtain ⟨e, mid, value, accepted⟩ := andThen_ok accepted
  obtain ⟨us, whole, reads⟩ := all (.value .sum) value
  split at accepted
  · rename_i h
    split at accepted
    · exact (fail_ok accepted).elim
    obtain ⟨vs, more, run⟩ :=
      all (.operands ((f.addOperand h).cover h.span)) (asNode_result accepted)
    rw [more, peek_append] at reads
    exact ⟨us ++ vs, by rw [whole, more, List.append_assoc], .operand reads run⟩
  · exact (fail_ok accepted).elim

omit ends in
theorem value_traced {level : Level} (loose : level ≠ .atom) :
    Traced s (n + 1) (.value level) := by
  intro ts rest e accepted
  have steps : ∃ l mid, ((Task.value (tighter level)).outcome s n ts).result = .ok (l, mid) ∧
      ((Task.chain level l).outcome s n mid).result = .ok (e, rest) := by
    cases level with
    | sum | product => exact andThen_ok accepted
    | atom => exact absurd rfl loose
  obtain ⟨l, mid, first, second⟩ := steps
  obtain ⟨us, whole, run⟩ := all _ first
  obtain ⟨vs, more, chain⟩ := all _ second
  rw [more, peek_append] at run
  exact ⟨us ++ vs, by rw [whole, more, List.append_assoc], .value loose run chain⟩

theorem chain_traced (level : Level) (l : Node) : Traced s (n + 1) (.chain level l) := by
  intro ts rest e accepted
  have steps : (Binds level (s.peek ts).kind ∧ ∃ r mid,
        ((Task.value (tighter level)).outcome s n ts.tail).result = .ok (r, mid) ∧
        ((Task.chain level (operator (s.peek ts) l r)).outcome s n mid).result = .ok (e, rest)) ∨
      (¬ Binds level (s.peek ts).kind ∧ l = e ∧ ts = rest) := by
    cases level with
    | sum =>
      rw [Task.outcome, sumFrom] at accepted
      simp only [Bool.or_eq_true, beq_iff_eq] at accepted
      split at accepted
      · exact .inl ⟨by assumption, andThen_ok accepted⟩
      · exact .inr ⟨by assumption, done_ok accepted⟩
    | product =>
      rw [Task.outcome, productFrom] at accepted
      simp only [Bool.or_eq_true, beq_iff_eq] at accepted
      split at accepted
      · exact .inl ⟨by assumption, andThen_ok accepted⟩
      · exact .inr ⟨by assumption, done_ok accepted⟩
    | atom => exact .inr ⟨id, done_ok accepted⟩
  rcases steps with ⟨sign, r, mid, first, second⟩ | ⟨other, rfl, rfl⟩
  · obtain ⟨op, ts, rfl⟩ := peek_some ends sign.proper
    obtain ⟨us, whole, run⟩ := all _ first
    obtain ⟨vs, more, chain⟩ := all _ second
    rw [more, peek_append] at run
    rw [List.tail_cons, more] at whole
    exact ⟨op :: (us ++ vs), by rw [whole]; simp, .operate sign run chain⟩
  · exact ⟨[], rfl, .stop other⟩

theorem factor_traced : Traced s (n + 1) (.value .atom) := by
  intro ts rest e accepted
  rw [Task.outcome, factor] at accepted
  split at accepted
  · exact number_traced ends accepted
  · exact number_traced ends accepted
  · exact number_traced ends accepted
  · rename_i is
    obtain ⟨l, ts, rfl, opens⟩ := peek_next ends is (by decide)
    obtain ⟨e, mid, inner, accepted⟩ := andThen_ok accepted
    obtain ⟨used, whole, run⟩ := all (.value .sum) inner
    dsimp only at accepted
    split at accepted
    · rename_i is
      obtain ⟨r, mid, rfl, closes⟩ := peek_next ends (eq_of_beq is) (by decide)
      obtain ⟨rfl, rfl⟩ := done_ok accepted
      rw [List.tail_cons] at whole
      exact ⟨l :: (used ++ [r]), by rw [whole]; simp, .group opens (closes ▸ run) closes⟩
    · exact (fail_ok accepted).elim
  · obtain ⟨f, mid, inner, accepted⟩ := andThen_ok accepted
    obtain ⟨rfl, rfl⟩ := done_ok accepted
    obtain ⟨used, whole, run⟩ := all .function (asNode_result inner)
    exact ⟨used, whole, .single run⟩
  · exact (fail_ok accepted).elim

end Tracing

/-- Whatever the fuel, all that the parser accepts is read by runs. -/
theorem traced_all {s : Setting} (ends : s.finish.kind = .eof) (n : Nat) (task : Task) :
    Traced s n task := by
  -- on the fuel; what may follow a name needs the same fuel as the lists in it
  induction n generalizing task with
  | zero =>
    have parameters (f : Function) : Traced s 0 (.parameters f) :=
      fun _ _ _ accepted => (asNode_fail accepted).elim
    have operands (f : Function) : Traced s 0 (.operands f) :=
      fun _ _ _ accepted => (asNode_fail accepted).elim
    cases task with
    | function => exact fun _ _ _ accepted => (asNode_fail accepted).elim
    | arguments f => exact arguments_traced ends (parameters f)
    | block f => exact block_traced ends (operands f)
    | parameters f => exact parameters f
    | operands f => exact operands f
    | value level => cases level <;> exact fun _ _ _ accepted => (fail_ok accepted).elim
    | chain level l =>
      cases level with
      | sum | product => exact fun _ _ _ accepted => (fail_ok accepted).elim
      | atom =>
        intro ts rest e accepted
        obtain ⟨rfl, rfl⟩ := done_ok accepted
        exact ⟨[], rfl, .stop id⟩
  | succ n ih =>
    cases task with
    | function => exact function_traced ends ih
    | arguments f => exact arguments_traced ends (parameters_traced ends ih f)
    | block f => exact block_traced ends (operands_traced ends ih f)
    | parameters f => exact parameters_traced ends ih f
    | operands f => exact operands_traced ends ih f
    | value level =>
      cases level with
      | sum | product => exact value_traced ih nofun
      | atom => exact factor_traced ends ih
    | chain level l => exact chain_traced ends ih level l

end DistanceField.Parser

namespace DistanceField

theorem parseTokens_ok {strict : Bool} {ts : List Token} {d : Document}
    (accepted : (parseTokens strict ts).result = .ok d) :
    ∃ rest, (Parser.documentFrom ⟨strict, finishOf ts⟩ (8 * (ts.length + 1)) ⟨[], .none⟩ ts).result =
      .ok (d, rest) := by
  unfold parseTokens at accepted
  dsimp only at accepted
  generalize (Parser.documentFrom ⟨strict, finishOf ts⟩ (8 * (ts.length + 1)) ⟨[], .none⟩ ts).result =
    o at accepted ⊢
  cases o with
  | error c => cases accepted
  | ok p =>
    cases accepted
    exact ⟨p.2, rfl⟩

theorem parse_ok {strict : Bool} {source : Bytes} {d : Document}
    (accepted : (parse strict source).result = .ok d) :
    ∃ ts, scan source = .ok ts ∧ (parseTokens strict ts).result = .ok d := by
  unfold parse at accepted
  cases scanned : scan source with
  | error c =>
    rw [scanned] at accepted
    cases accepted
  | ok ts =>
    rw [scanned] at accepted
    exact ⟨ts, rfl, accepted⟩

end DistanceField
