import DistanceField.Proofs.Source.Trace

/-! A step that has read some tokens reads them again anywhere else: each run succeeds in the parser,
with fuel for the tokens it takes. -/
namespace DistanceField.Parser

open Grammar Outcome

section Steps

variable {s : Setting}

theorem factor_number {n : Nat} {t : Token} {ts : List Token}
    (is : t.kind = .number ∨ t.kind = .plus ∨ t.kind = .minus) :
    factor s (n + 1) (t :: ts) = number s (t :: ts) := by
  rw [factor, peek_cons]
  rcases is with is | is | is <;> rw [is]

theorem sumFrom_stop {n : Nat} {e : Node} {rest : List Token} (fuel : 1 ≤ n)
    (plus : (s.peek rest).kind ≠ .plus) (minus : (s.peek rest).kind ≠ .minus) :
    sumFrom s n e rest = done e rest := by
  obtain ⟨n, rfl⟩ := Nat.exists_eq_add_of_le' fuel
  rw [sumFrom]
  simp [plus, minus]

theorem productFrom_stop {n : Nat} {e : Node} {rest : List Token} (fuel : 1 ≤ n)
    (star : (s.peek rest).kind ≠ .star) (slash : (s.peek rest).kind ≠ .slash) :
    productFrom s n e rest = done e rest := by
  obtain ⟨n, rfl⟩ := Nat.exists_eq_add_of_le' fuel
  rw [productFrom]
  simp [star, slash]

/-- A step ends with `a` before `rest`, and without warnings when strict. -/
structure Succeeds {α : Type} (s : Setting) (o : Outcome α) (a : α) (rest : List Token) : Prop where
  result : o.result = .ok (a, rest)
  silent : s.strict = true → o.warnings = []

theorem succeeds_done {α : Type} (a : α) (ts : List Token) : Succeeds s (done a ts) a ts :=
  ⟨rfl, fun _ => rfl⟩

theorem Succeeds.andThen {α β : Type} {o : Outcome α} {next : α → List Token → Outcome β} {a : α}
    {b : β} {ts rest : List Token} (first : Succeeds s o a ts)
    (second : Succeeds s (next a ts) b rest) : Succeeds s (o.andThen next) b rest := by
  unfold Outcome.andThen
  rw [first.result]
  refine ⟨second.result, ?_⟩
  intro strict
  show o.warnings ++ (next a ts).warnings = []
  rw [first.silent strict, second.silent strict, List.append_nil]

theorem assign_succeeds {f : Function} {name : Token} (e : Node) (ts : List Token)
    (fresh : s.strict = true → ¬ (f.param? name.value).isSome = true) :
    Succeeds s (assign s f name e ts) ((f.assign name.value e).cover e.span) ts := by
  unfold assign
  dsimp only
  split
  · rename_i known
    have lax : ¬ s.strict = true := fun strict => fresh strict known
    rw [if_neg lax]
    exact ⟨rfl, fun strict => absurd strict lax⟩
  · exact succeeds_done ..

theorem parameters_end {n : Nat} {r : Token} {rest : List Token} (f : Function) (fuel : 1 ≤ n)
    (closes : r.kind = .rparen) :
    Succeeds s (parameters s n f (r :: rest)) (f.cover r.span) rest := by
  obtain ⟨n, rfl⟩ := Nat.exists_eq_add_of_le' fuel
  rw [parameters]
  simp only [peek_cons, closes]
  exact succeeds_done ..

end Steps

section Replaying

variable {s : Setting}

/-- The fuel that a step needs beside eight for each token but one. -/
def Task.cost : Task → Nat
  | .function => 1
  | .value .atom => 2
  | .value .product => 3
  | .value .sum => 4
  | .arguments _ | .block _ | .parameters _ | .operands _ => 8
  | .chain .. => 9

/-- A step succeeds on some tokens before all that starts with a token of kind `next`. -/
def Replays (s : Setting) (task : Task) (next : Kind) (us : List Token) (e : Node) : Prop :=
  ∀ n rest, 8 * us.length + task.cost ≤ n + 8 → (s.peek rest).kind = next →
    Succeeds s (task.outcome s n (us ++ rest)) e rest

theorem asNode_succeeds {o : Outcome Function} {f : Function} {rest : List Token} :
    Succeeds s (asNode o) (.function f) rest ↔ Succeeds s o f rest := by
  constructor
  · intro succeeds
    obtain ⟨g, same, read⟩ := asNode_ok succeeds.result
    cases same
    refine ⟨read, fun strict => ?_⟩
    have silent := succeeds.silent strict
    rw [asNode, andThen, read] at silent
    exact (List.append_eq_nil_iff.mp silent).1
  · intro succeeds
    exact succeeds.andThen (succeeds_done ..)

variable {next : Kind} {us vs : List Token} {f g h : Function} {l r e : Node}

theorem replays_function {name : Token} (is : name.kind = .identifier)
    (arguments : Replays s (.arguments (named name)) (ahead vs next) us (.function f))
    (block : Replays s (.block f) next vs (.function g)) :
    Replays s .function next (name :: (us ++ vs)) (.function g) := by
  intro n rest fuel behind
  simp only [List.length_cons, List.length_append, Task.cost] at fuel
  obtain ⟨n, rfl⟩ := Nat.exists_eq_add_of_le' (show 1 ≤ n by omega)
  have first := arguments n (vs ++ rest) (by simp only [Task.cost]; omega)
    (by rw [peek_append, behind])
  have second := block n rest (by simp only [Task.cost]; omega) behind
  have whole : name :: (us ++ vs) ++ rest = name :: (us ++ (vs ++ rest)) := by simp
  refine asNode_succeeds.mpr ?_
  rw [whole, Parser.function]
  simp only [peek_cons, List.tail_cons, is]
  exact (asNode_succeeds.mp first).andThen (asNode_succeeds.mp second)

theorem replays_list {task : Task} {l : Token} {k : Kind}
    {list : Nat → Function → List Token → Outcome Function} (opens : l.kind = k)
    (steps : ∀ n ts, task.outcome s n ts =
      asNode (if (s.peek ts).kind == k then list n f ts.tail else done f ts))
    (cost : task.cost = 8)
    (inner : ∀ n rest, 8 * us.length ≤ n → (s.peek rest).kind = next →
      Succeeds s (list n f (us ++ rest)) g rest) :
    Replays s task next (l :: us) (.function g) := by
  intro n rest fuel behind
  rw [List.length_cons] at fuel
  rw [steps, asNode_succeeds, List.cons_append, peek_cons, if_pos (beq_iff_eq.mpr opens)]
  exact inner n rest (by omega) behind

theorem replays_none {task : Task} {k : Kind}
    {list : Nat → Function → List Token → Outcome Function} (alone : next ≠ k)
    (steps : ∀ n ts, task.outcome s n ts =
      asNode (if (s.peek ts).kind == k then list n f ts.tail else done f ts)) :
    Replays s task next [] (.function f) := by
  intro n rest _ behind
  rw [steps, asNode_succeeds, List.nil_append, behind, if_neg (by simpa using alone)]
  exact succeeds_done ..

theorem replays_given {name eq : Token} {sep : List Token} (is : name.kind = .identifier)
    (equals : eq.kind = .assign) (value : Replays s (.value .sum) (ahead (sep ++ vs) next) us e)
    (arithmetic : e.function? = none)
    (fresh : s.strict = true → ¬ (f.param? name.value).isSome = true)
    (separates : Separates (ahead vs next) sep)
    (rest : Replays s (.parameters ((f.assign name.value e).cover e.span)) next vs (.function g)) :
    Replays s (.parameters f) next (name :: eq :: (us ++ (sep ++ vs))) (.function g) := by
  intro n behind fuel kind
  simp only [List.length_cons, List.length_append, Task.cost] at fuel
  obtain ⟨n, rfl⟩ := Nat.exists_eq_add_of_le' (show 1 ≤ n by omega)
  have read := value n (sep ++ vs ++ behind) (by simp only [Task.cost]; omega)
    (by rw [peek_append, kind])
  have goes := asNode_succeeds.mp (rest n behind (by simp only [Task.cost]; omega) kind)
  have whole : name :: eq :: (us ++ (sep ++ vs)) ++ behind =
      name :: eq :: (us ++ (sep ++ vs ++ behind)) := by simp
  refine asNode_succeeds.mpr ?_
  rw [whole, Parser.parameters]
  simp only [peek_cons, List.tail_cons, is, equals]
  refine read.andThen ?_
  rw [arithmetic]
  refine (assign_succeeds e _ fresh).andThen ?_
  cases separates with
  | none closes =>
    have front : (s.peek ([] ++ vs ++ behind)).kind = .rparen := by
      rw [List.nil_append, peek_append, kind, closes]
    simp only [front]
    exact goes
  | comma is =>
    simp only [List.cons_append, peek_cons, is, List.tail_cons]
    exact goes

theorem replays_operand (starts : ∃ t ts, us = t :: ts ∧ t.kind ≠ .rbrace) (clean : Clean us)
    (filled : ∃ t ts, vs = t :: ts) (more : Clean vs)
    (first : Replays s (.value .sum) (ahead vs next) us (.function g))
    (rest : Replays s (.operands ((f.addOperand g).cover g.span)) next vs (.function h)) :
    Replays s (.operands f) next (us ++ vs) (.function h) := by
  intro n behind fuel kind
  obtain ⟨t, ts, rfl, other⟩ := starts
  obtain ⟨v, vs, rfl⟩ := filled
  have proper : t.kind ≠ .eof := clean t (List.mem_cons_self ..)
  have later : v.kind ≠ .eof := more v (List.mem_cons_self ..)
  simp only [List.length_cons, List.length_append, Task.cost] at fuel
  obtain ⟨n, rfl⟩ := Nat.exists_eq_add_of_le' (show 1 ≤ n by omega)
  have read := first n (v :: vs ++ behind) (by simp only [List.length_cons, Task.cost]; omega) rfl
  have goes := rest n behind (by simp only [List.length_cons, Task.cost]; omega) kind
  refine asNode_succeeds.mpr ?_
  rw [List.append_assoc, List.cons_append, Parser.operands, peek_cons,
    if_neg (by simpa using other), if_neg (by simpa using proper)]
  refine read.andThen ?_
  dsimp only
  rw [List.cons_append, peek_cons, if_neg (by simpa using later)]
  exact asNode_succeeds.mp goes

theorem outcome_value {level : Level} (loose : level ≠ .atom) (n : Nat) (ts : List Token) :
    (Task.value level).outcome s (n + 1) ts = ((Task.value (tighter level)).outcome s n ts).andThen
      fun l ts => (Task.chain level l).outcome s n ts := by
  cases level with
  | sum => rw [Task.outcome, expression]; rfl
  | product => rw [Task.outcome, term]; rfl
  | atom => exact absurd rfl loose

theorem outcome_chain {level : Level} {op : Token} (sign : Binds level op.kind) (n : Nat)
    (ts : List Token) : (Task.chain level l).outcome s (n + 1) (op :: ts) =
      ((Task.value (tighter level)).outcome s n ts).andThen
        fun r ts => (Task.chain level (operator op l r)).outcome s n ts := by
  cases level with
  | sum =>
    have binds : (op.kind == .plus || op.kind == .minus) = true := by simpa [Binds] using sign
    rw [Task.outcome, sumFrom, peek_cons, if_pos binds]
    rfl
  | product =>
    have binds : (op.kind == .star || op.kind == .slash) = true := by simpa [Binds] using sign
    rw [Task.outcome, productFrom, peek_cons, if_pos binds]
    rfl
  | atom => exact sign.elim

theorem cost_value {level : Level} (loose : level ≠ .atom) :
    (Task.value level).cost = (Task.value (tighter level)).cost + 1 ∧ 3 ≤ (Task.value level).cost := by
  cases level with
  | sum | product => decide
  | atom => exact absurd rfl loose

theorem replays_value {level : Level} (loose : level ≠ .atom) (filled : 1 ≤ us.length)
    (first : Replays s (.value (tighter level)) (ahead vs next) us l)
    (rest : Replays s (.chain level l) next vs e) :
    Replays s (.value level) next (us ++ vs) e := by
  intro n behind fuel kind
  obtain ⟨cost, least⟩ := cost_value loose
  have chain : (Task.chain level l).cost = 9 := rfl
  rw [List.length_append] at fuel
  obtain ⟨n, rfl⟩ := Nat.exists_eq_add_of_le' (show 1 ≤ n by omega)
  have read := first n (vs ++ behind) (by omega) (by rw [peek_append, kind])
  have goes := rest n behind (by omega) kind
  rw [List.append_assoc, outcome_value loose]
  exact read.andThen goes

theorem replays_stop {level : Level} (other : ¬ Binds level next) :
    Replays s (.chain level e) next [] e := by
  intro n rest fuel behind
  rw [List.length_nil, Task.cost] at fuel
  cases level with
  | sum =>
    rw [Task.outcome, List.nil_append, sumFrom_stop (by omega) (fun is => other (.inl (behind ▸ is)))
      (fun is => other (.inr (behind ▸ is)))]
    exact succeeds_done ..
  | product =>
    rw [Task.outcome, List.nil_append, productFrom_stop (by omega)
      (fun is => other (.inl (behind ▸ is))) (fun is => other (.inr (behind ▸ is)))]
    exact succeeds_done ..
  | atom => exact succeeds_done ..

theorem replays_operate {level : Level} {op : Token} (sign : Binds level op.kind)
    (right : Replays s (.value (tighter level)) (ahead vs next) us r)
    (rest : Replays s (.chain level (operator op l r)) next vs e) :
    Replays s (.chain level l) next (op :: (us ++ vs)) e := by
  intro n behind fuel kind
  have cost : (Task.value (tighter level)).cost ≤ 3 := by cases level <;> decide
  simp only [List.length_cons, List.length_append, Task.cost] at fuel
  obtain ⟨n, rfl⟩ := Nat.exists_eq_add_of_le' (show 1 ≤ n by omega)
  have read := right n (vs ++ behind) (by omega) (by rw [peek_append, kind])
  have goes := rest n behind (by simp only [Task.cost]; omega) kind
  rw [List.cons_append, List.append_assoc, outcome_chain sign]
  exact read.andThen goes

theorem replays_group {l r : Token} (opens : l.kind = .lparen)
    (inner : Replays s (.value .sum) .rparen us e) (closes : r.kind = .rparen) :
    Replays s (.value .atom) next (l :: (us ++ [r])) e := by
  intro n rest fuel _
  simp only [List.length_cons, List.length_append, Task.cost] at fuel
  obtain ⟨n, rfl⟩ := Nat.exists_eq_add_of_le' (show 1 ≤ n by omega)
  have read := inner n (r :: rest) (by simp only [Task.cost]; omega) closes
  have whole : l :: (us ++ [r]) ++ rest = l :: (us ++ r :: rest) := by simp
  rw [whole, Task.outcome, factor, peek_cons, opens]
  refine read.andThen ?_
  rw [peek_cons, if_pos (beq_iff_eq.mpr closes), List.tail_cons]
  exact succeeds_done ..

theorem replays_single (starts : ∃ t ts, us = t :: ts ∧ t.kind = .identifier)
    (function : Replays s .function next us (.function f)) :
    Replays s (.value .atom) next us (.function f) := by
  intro n rest fuel behind
  obtain ⟨t, ts, rfl, is⟩ := starts
  simp only [List.length_cons, Task.cost] at fuel
  obtain ⟨n, rfl⟩ := Nat.exists_eq_add_of_le' (show 1 ≤ n by omega)
  have read := function n rest (by simp only [List.length_cons, Task.cost]; omega) behind
  rw [List.cons_append] at read ⊢
  rw [Task.outcome, factor, peek_cons, is]
  exact read

end Replaying

/-- What a run reads is read again by the parser, wherever it stands before a token of the same kind,
with the same tree. -/
theorem Run.replays {s : Setting} {task : Task} {next : Kind} {us : List Token} {e : Node}
    (run : Run s.strict task next us e) : Replays s task next us e := by
  induction run with
  | function is _ _ iha ihb => exact replays_function is iha ihb
  | bare alone => exact replays_none alone fun _ _ => rfl
  | plain alone => exact replays_none alone fun _ _ => rfl
  | called opens _ ih =>
    refine replays_list opens (fun _ _ => rfl) rfl fun n rest fuel behind => ?_
    exact asNode_succeeds.mp (ih n rest (by simp only [Task.cost]; omega) behind)
  | braces opens _ ih =>
    refine replays_list opens (fun _ _ => rfl) rfl fun n rest fuel behind => ?_
    exact asNode_succeeds.mp (ih n rest (by simp only [Task.cost]; omega) behind)
  | closed closes =>
    intro n rest fuel _
    simp only [List.length_singleton, Task.cost] at fuel
    exact asNode_succeeds.mpr (parameters_end _ (by omega) closes)
  | given is equals _ arithmetic fresh separates _ ihv ihr =>
    exact replays_given is equals ihv arithmetic fresh separates ihr
  | ended closes =>
    intro n rest fuel _
    simp only [List.length_singleton, Task.cost] at fuel
    obtain ⟨n, rfl⟩ := Nat.exists_eq_add_of_le' (show 1 ≤ n by omega)
    refine asNode_succeeds.mpr ?_
    rw [List.singleton_append, Parser.operands, peek_cons, if_pos (beq_iff_eq.mpr closes)]
    exact succeeds_done ..
  | operand first rest ihf ihr =>
    exact replays_operand first.starts first.clean rest.starts rest.clean ihf ihr
  | value loose first _ ihf ihr =>
    obtain ⟨t, ts, rfl, -⟩ := first.starts
    exact replays_value loose (by simp) ihf ihr
  | stop other => exact replays_stop other
  | operate sign _ _ ihr ihc => exact replays_operate sign ihr ihc
  | number digits =>
    intro n rest fuel _
    simp only [List.length_singleton, Task.cost] at fuel
    obtain ⟨n, rfl⟩ := Nat.exists_eq_add_of_le' (show 1 ≤ n by omega)
    rw [Task.outcome, List.singleton_append, factor_number (.inl digits), number_plain digits]
    exact succeeds_done ..
  | signed sign digits =>
    intro n rest fuel _
    simp only [List.length_cons, Task.cost] at fuel
    obtain ⟨n, rfl⟩ := Nat.exists_eq_add_of_le' (show 1 ≤ n by omega)
    rw [Task.outcome, List.cons_append, List.singleton_append, factor_number (.inr sign),
      number_signed sign digits]
    exact succeeds_done ..
  | group opens _ closes ih => exact replays_group opens ih closes
  | single function ih =>
    cases function with
    | function is => exact replays_single ⟨_, _, rfl, is⟩ ih

end DistanceField.Parser
