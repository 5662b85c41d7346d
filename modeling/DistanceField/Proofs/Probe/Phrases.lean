import DistanceField.Probe.Expr
import Mathlib

/-! Tokens that are read as one expression, whatever follows them. -/
namespace DistanceField.Probe

open Reader

inductive Closed : List Token → Prop where
  | none : Closed []
  | rparen (ts : List Token) : Closed (.symbol .rparen :: ts)
  | comma (ts : List Token) : Closed (.symbol .comma :: ts)

inductive Stopped : List Token → Prop where
  | closed {ts : List Token} (closed : Closed ts) : Stopped ts
  | minus (ts : List Token) : Stopped (.symbol .minus :: ts)
  | star (ts : List Token) : Stopped (.symbol .star :: ts)

theorem selections_stop {rest : List Token} (stopped : Stopped rest) (n : Nat) (e : Expr) :
    selections (n + 1) e rest = some (e, rest) := by
  cases stopped with
  | closed closed => cases closed <;> rfl
  | minus | star => rfl

theorem isCall_stop {rest : List Token} (stopped : Stopped rest) : isCall rest = false := by
  cases stopped with
  | closed closed => cases closed <;> rfl
  | minus | star => rfl

def Starts (ts : List Token) : Prop := ∃ t us, ts = t :: us ∧ t ≠ .symbol .rparen

theorem Starts.append {ts : List Token} (starts : Starts ts) (us : List Token) :
    Starts (ts ++ us) := by
  obtain ⟨t, vs, rfl, other⟩ := starts
  exact ⟨t, vs ++ us, rfl, other⟩

structure Atom (ts : List Token) (e : Expr) : Prop where
  starts : Starts ts
  reads : ∀ n rest, 12 * ts.length ≤ n + 6 → Stopped rest → unary n (ts ++ rest) = some (e, rest)

structure Whole (ts : List Token) (e : Expr) : Prop where
  starts : Starts ts
  reads : ∀ n rest, 12 * ts.length ≤ n → Closed rest → expression n (ts ++ rest) = some (e, rest)

/-- Tokens that are read as arguments up to the closing parenthesis. -/
def Listed (ts : List Token) (es : List Expr) : Prop :=
  ∀ n rest, 12 * ts.length ≤ n → arguments n (ts ++ rest) = some (es, rest)

theorem Atom.whole (k : Nat) : Atom [.whole k] (.whole k) := by
  refine ⟨⟨_, _, rfl, nofun⟩, fun n rest fuel _ => ?_⟩
  obtain ⟨n, rfl⟩ := Nat.exists_eq_add_of_le' (show 2 ≤ n by simp at fuel; omega)
  rfl

theorem Atom.float (v : Float) : Atom [.float v] (.float v) := by
  refine ⟨⟨_, _, rfl, nofun⟩, fun n rest fuel _ => ?_⟩
  obtain ⟨n, rfl⟩ := Nat.exists_eq_add_of_le' (show 2 ≤ n by simp at fuel; omega)
  rfl

theorem primary_name {w : Bytes} (free : constant? w = none) {ts : List Token}
    (bare : isCall ts = false) (n : Nat) :
    unary (n + 2) (.name w :: ts) = selections n (.name w) ts := by
  show primary (n + 1) (.name w :: ts) = _
  simp only [primary, free, bare, Bool.false_eq_true, if_false]

theorem Atom.name {w : Bytes} (free : constant? w = none) : Atom [.name w] (.name w) := by
  refine ⟨⟨_, _, rfl, nofun⟩, fun n rest fuel stopped => ?_⟩
  obtain ⟨n, rfl⟩ := Nat.exists_eq_add_of_le' (show 3 ≤ n by simp at fuel; omega)
  rw [List.singleton_append, primary_name free (isCall_stop stopped), selections_stop stopped]

theorem Atom.member {w : Bytes} (free : constant? w = none) (sel : Bytes) :
    Atom [.name w, .symbol .dot, .name sel] (.member (.name w) sel) := by
  refine ⟨⟨_, _, rfl, nofun⟩, fun n rest fuel stopped => ?_⟩
  obtain ⟨n, rfl⟩ := Nat.exists_eq_add_of_le' (show 4 ≤ n by simp at fuel; omega)
  show unary (n + 4) (.name w :: .symbol .dot :: .name sel :: rest) = _
  rw [primary_name free rfl, selections]
  simp only [isCall_stop stopped, Bool.false_eq_true, if_false]
  exact selections_stop stopped n _

theorem Atom.call {w : Bytes} (free : constant? w = none) {ts : List Token} {es : List Expr}
    (list : Listed ts es) : Atom (.name w :: .symbol .lparen :: ts) (.call w es) := by
  refine ⟨⟨_, _, rfl, nofun⟩, fun n rest fuel stopped => ?_⟩
  simp only [List.length_cons] at fuel
  obtain ⟨n, rfl⟩ := Nat.exists_eq_add_of_le' (show 3 ≤ n by omega)
  show primary (n + 2) (.name w :: .symbol .lparen :: (ts ++ rest)) = _
  simp only [primary, free, isCall, if_true, List.drop_succ_cons, List.drop_zero,
    list (n + 1) rest (by omega), Option.bind_eq_bind, Option.bind_some]
  exact selections_stop stopped n _

theorem Atom.group {ts : List Token} {e : Expr} (inner : Whole ts e) :
    Atom (.symbol .lparen :: (ts ++ [.symbol .rparen])) e := by
  refine ⟨⟨_, _, rfl, nofun⟩, fun n rest fuel stopped => ?_⟩
  simp only [List.length_cons, List.length_append] at fuel
  obtain ⟨n, rfl⟩ := Nat.exists_eq_add_of_le' (show 3 ≤ n by omega)
  have read := inner.reads (n + 1) (.symbol .rparen :: rest) (by omega) (.rparen rest)
  show primary (n + 2) (.symbol .lparen :: ((ts ++ [.symbol .rparen]) ++ rest)) = _
  rw [List.append_assoc, List.singleton_append, primary]
  simp only [read, Option.bind_eq_bind, Option.bind_some]
  exact selections_stop stopped n _

theorem Atom.negate {ts : List Token} {e : Expr} (inner : Atom ts e) :
    Atom (.symbol .minus :: ts) (.negate e) := by
  refine ⟨⟨_, _, rfl, nofun⟩, fun n rest fuel stopped => ?_⟩
  simp only [List.length_cons] at fuel
  obtain ⟨n, rfl⟩ := Nat.exists_eq_add_of_le' (show 2 ≤ n by omega)
  rw [List.cons_append, unary]
  simp only [inner.reads (n + 1) rest (by omega) stopped, Option.bind_eq_bind, Option.bind_some]
  exact selections_stop stopped n _

theorem expression_of_sum {n : Nat} {ts rest : List Token} {e : Expr}
    (read : sum (n + 1) ts = some (e, rest)) (closed : Closed rest) :
    expression (n + 5) ts = some (e, rest) := by
  have compared : comparisonsFrom (n + 1) e rest = some (e, rest) := by cases closed <;> rfl
  have joined : conjunctsFrom (n + 2) e rest = some (e, rest) := by cases closed <;> rfl
  have varied : disjunctsFrom (n + 3) e rest = some (e, rest) := by cases closed <;> rfl
  have chosen : choicesFrom (n + 4) e rest = some (e, rest) := by cases closed <;> rfl
  simp only [expression, disjunct, conjunct, comparison, read, Option.bind_eq_bind, Option.bind_some,
    compared, joined, varied, chosen]

theorem sumFrom_closed {rest : List Token} (closed : Closed rest) (n : Nat) (e : Expr) :
    sumFrom (n + 1) e rest = some (e, rest) := by
  cases closed <;> rfl

theorem productFrom_closed {rest : List Token} (closed : Closed rest) (n : Nat) (e : Expr) :
    productFrom (n + 1) e rest = some (e, rest) := by
  cases closed <;> rfl

theorem Atom.argument {ts : List Token} {e : Expr} (atom : Atom ts e) : Whole ts e := by
  refine ⟨atom.starts, fun n rest fuel closed => ?_⟩
  obtain ⟨t, us, rfl, -⟩ := atom.starts
  rw [List.length_cons] at fuel
  obtain ⟨n, rfl⟩ := Nat.exists_eq_add_of_le' (show 7 ≤ n by omega)
  refine expression_of_sum (n := n + 2) ?_ closed
  have first := atom.reads (n + 1) rest (by rw [List.length_cons]; omega) (.closed closed)
  simp only [sum, product, first, Option.bind_eq_bind, Option.bind_some, productFrom_closed closed,
    sumFrom_closed closed]

theorem Whole.difference {ts us : List Token} {a b : Expr} (left : Atom ts a) (right : Atom us b) :
    Whole (ts ++ .symbol .minus :: us) (.binary .sub a b) := by
  refine ⟨left.starts.append _, fun n rest fuel closed => ?_⟩
  obtain ⟨t, vs, rfl, -⟩ := right.starts
  rw [List.length_append, List.length_cons, List.length_cons] at fuel
  obtain ⟨n, rfl⟩ := Nat.exists_eq_add_of_le' (show 8 ≤ n by omega)
  have second := right.reads (n + 1) rest (by rw [List.length_cons]; omega) (.closed closed)
  have first := left.reads (n + 2) (.symbol .minus :: (t :: vs ++ rest)) (by omega) (.minus _)
  refine expression_of_sum (n := n + 3) ?_ closed
  rw [List.append_assoc, List.cons_append]
  simp only [sum, product, first, Option.bind_eq_bind, Option.bind_some]
  show sumFrom (n + 3) a (.symbol .minus :: (t :: vs ++ rest)) = _
  rw [sumFrom]
  simp only [sumOperator?, product, second, Option.bind_eq_bind, Option.bind_some,
    productFrom_closed closed, sumFrom_closed closed]

theorem Whole.scaled {ts us : List Token} {a b : Expr} (left : Atom ts a) (right : Atom us b) :
    Whole (ts ++ .symbol .star :: us) (.binary .mul a b) := by
  refine ⟨left.starts.append _, fun n rest fuel closed => ?_⟩
  obtain ⟨t, vs, rfl, -⟩ := right.starts
  rw [List.length_append, List.length_cons, List.length_cons] at fuel
  obtain ⟨n, rfl⟩ := Nat.exists_eq_add_of_le' (show 8 ≤ n by omega)
  have second := right.reads (n + 1) rest (by rw [List.length_cons]; omega) (.closed closed)
  have first := left.reads (n + 2) (.symbol .star :: (t :: vs ++ rest)) (by omega) (.star _)
  refine expression_of_sum (n := n + 3) ?_ closed
  rw [List.append_assoc, List.cons_append]
  simp only [sum, product, first, Option.bind_eq_bind, Option.bind_some]
  rw [productFrom]
  simp only [productOperator?, second, Option.bind_eq_bind, Option.bind_some,
    productFrom_closed closed, sumFrom_closed closed]

theorem Starts.unclosed {ts : List Token} (starts : Starts ts) (us : List Token) :
    ts = .symbol .rparen :: us → False := by
  obtain ⟨t, vs, rfl, other⟩ := starts
  intro same
  cases same
  exact other rfl

theorem Listed.last {ts : List Token} {e : Expr} (argument : Whole ts e) :
    Listed (ts ++ [.symbol .rparen]) [e] := by
  intro n rest fuel
  rw [List.length_append, List.length_singleton] at fuel
  obtain ⟨n, rfl⟩ := Nat.exists_eq_add_of_le' (show 1 ≤ n by omega)
  have first := argument.reads n (.symbol .rparen :: rest) (by omega) (.rparen rest)
  rw [List.append_assoc, List.singleton_append, arguments]
  · simp only [first, Option.bind_eq_bind, Option.bind_some]
  · exact (argument.starts.append _).unclosed

theorem Listed.more {ts us : List Token} {e : Expr} {es : List Expr} (argument : Whole ts e)
    (list : Listed us es) : Listed (ts ++ .symbol .comma :: us) (e :: es) := by
  intro n rest fuel
  rw [List.length_append, List.length_cons] at fuel
  obtain ⟨n, rfl⟩ := Nat.exists_eq_add_of_le' (show 1 ≤ n by omega)
  have first := argument.reads n (.symbol .comma :: (us ++ rest)) (by omega) (.comma _)
  rw [List.append_assoc, List.cons_append, arguments]
  · simp only [first, Option.bind_eq_bind, Option.bind_some, list n rest (by omega)]
  · exact (argument.starts.append _).unclosed

end DistanceField.Probe
