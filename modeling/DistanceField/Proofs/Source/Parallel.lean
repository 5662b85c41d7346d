import Mathlib.Data.List.Forall2
import Mathlib.Tactic.Common
import DistanceField.Source.Parser

/-! Two runs of the parser side by side. What they share at the start, they share at every step, as
long as it is kept by the few things that a step does: look at a token, pass it, build a tree, fail
at a place, and go on with what another step returns. -/
namespace DistanceField.Parser

open Outcome

/-- How the trees of two runs are alike. -/
structure Likeness where
  span : Interval → Interval → Prop
  node : Node → Node → Prop
  function : Function → Function → Prop
  union {i j i' j' : Interval} : span i i' → span j j' → span (i.union j) (i'.union j')
  number {v : Float} {i i' : Interval} : span i i' → node (.number v i) (.number v i')
  operator {k : Kind} {l r l' r' : Node} {i i' : Interval} : node l l' → node r r' → span i i' →
    node (.operator k l r i) (.operator k l' r' i')
  single {f f' : Function} : function f f' → node (.function f) (.function f')
  place {e e' : Node} : node e e' → span e.span e'.span
  describe {e e' : Node} : node e e' → e.describe = e'.describe
  function? {e e' : Node} : node e e' → Option.Rel function e.function? e'.function?
  operand {e e' : Node} : node e e' → (∃ g g', e = .function g ∧ e' = .function g' ∧ function g g') ∨
    (∀ g, e ≠ .function g) ∧ ∀ g, e' ≠ .function g
  named {n : Bytes} {i i' : Interval} : span i i' → function (.mk n [] [] i) (.mk n [] [] i')
  name {f f' : Function} : function f f' → f.name = f'.name
  cover {f f' : Function} {i i' : Interval} : function f f' → span i i' →
    function (f.cover i) (f'.cover i')
  addOperand {f f' g g' : Function} : function f f' → function g g' →
    function (f.addOperand g) (f'.addOperand g')

def Likeness.exact : Likeness where
  span := Eq
  node := Eq
  function := Eq
  union first second := by rw [first, second]
  number place := by rw [place]
  operator left right place := by rw [left, right, place]
  single like := by rw [like]
  place like := by rw [like]
  describe like := by rw [like]
  function? {e e'} like := by
    subst like
    cases e.function? with
    | none => exact .none
    | some f => exact .some rfl
  operand {e e'} like := by
    subst like
    cases e with
    | function g => exact .inl ⟨g, g, rfl, rfl, rfl⟩
    | _ => exact .inr (by simp)
  named place := by rw [place]
  name like := by rw [like]
  cover like place := by rw [like, place]
  addOperand first second := by rw [first, second]

/-- What two runs keep in common: how the tokens ahead of them are alike, and what they return. -/
structure Bond (alike : Likeness) (s t : Setting) where
  tokens : List Token → List Token → Prop
  outcome {α : Type} (value : α → α → Prop) : Outcome α → Outcome α → Prop
  kind {ts us : List Token} : tokens ts us → (s.peek ts).kind = (t.peek us).kind
  value {ts us : List Token} : tokens ts us → (s.peek ts).value = (t.peek us).value
  span {ts us : List Token} : tokens ts us → alike.span (s.peek ts).span (t.peek us).span
  tail {ts us : List Token} : tokens ts us → (t.peek us).kind ≠ .eof → tokens ts.tail us.tail
  done {α : Type} {same : α → α → Prop} {a b : α} {ts us : List Token} : same a b → tokens ts us →
    outcome same (done a ts) (done b us)
  fail {α : Type} {same : α → α → Prop} {trouble : Trouble} {i j : Interval} : alike.span i j →
    outcome same (fail trouble i) (fail trouble j)
  andThen {α β : Type} {same : α → α → Prop} {other : β → β → Prop} {o p : Outcome α}
    {next next' : α → List Token → Outcome β} : outcome same o p →
    (∀ {a b ts us}, same a b → tokens ts us → outcome other (next a ts) (next' b us)) →
    outcome other (o.andThen next) (p.andThen next')
  assign {f f' : Function} {name name' : Token} {e e' : Node} {ts us : List Token} :
    alike.function f f' → name.value = name'.value → alike.span name.span name'.span →
    alike.node e e' → tokens ts us →
    outcome alike.function (assign s f name e ts) (assign t f' name' e' us)

variable {alike : Likeness} {s t : Setting}

/-- The steps of two runs with the same fuel return what is alike. -/
structure Linked (bond : Bond alike s t) (n : Nat) : Prop where
  function : ∀ {ts us}, bond.tokens ts us →
    bond.outcome alike.function (function s n ts) (function t n us)
  parameters : ∀ {f f' ts us}, alike.function f f' → bond.tokens ts us →
    bond.outcome alike.function (parameters s n f ts) (parameters t n f' us)
  operands : ∀ {f f' ts us}, alike.function f f' → bond.tokens ts us →
    bond.outcome alike.function (operands s n f ts) (operands t n f' us)
  expression : ∀ {ts us}, bond.tokens ts us →
    bond.outcome alike.node (expression s n ts) (expression t n us)
  sumFrom : ∀ {e e' ts us}, alike.node e e' → bond.tokens ts us →
    bond.outcome alike.node (sumFrom s n e ts) (sumFrom t n e' us)
  term : ∀ {ts us}, bond.tokens ts us → bond.outcome alike.node (term s n ts) (term t n us)
  productFrom : ∀ {e e' ts us}, alike.node e e' → bond.tokens ts us →
    bond.outcome alike.node (productFrom s n e ts) (productFrom t n e' us)
  factor : ∀ {ts us}, bond.tokens ts us → bond.outcome alike.node (factor s n ts) (factor t n us)

namespace Bond

variable (bond : Bond alike s t) {ts us : List Token} {n : Nat}

theorem branch {α : Type} {same : α → α → Prop} {p q : Prop} [Decidable p] [Decidable q]
    {a b : Outcome α} {a' b' : Outcome α} (iff : p ↔ q) (yes : q → bond.outcome same a a')
    (no : ¬ q → bond.outcome same b b') :
    bond.outcome same (if p then a else b) (if q then a' else b') := by
  by_cases holds : q
  · rw [if_pos (iff.mpr holds), if_pos holds]
    exact yes holds
  · rw [if_neg (fun h => holds (iff.mp h)), if_neg holds]
    exact no holds

theorem is (same : bond.tokens ts us) (k : Kind) :
    ((s.peek ts).kind == k) = true ↔ ((t.peek us).kind == k) = true := by
  rw [bond.kind same]

theorem pass (same : bond.tokens ts us) {k : Kind} (found : ((t.peek us).kind == k) = true)
    (proper : k ≠ .eof) : bond.tokens ts.tail us.tail :=
  bond.tail same (eq_of_beq found ▸ proper)

theorem number_linked (same : bond.tokens ts us) :
    bond.outcome alike.node (Parser.number s ts) (Parser.number t us) := by
  simp only [Parser.number]
  rw [bond.kind same]
  generalize signed : ((t.peek us).kind == .plus || (t.peek us).kind == .minus) = sign
  have rest : bond.tokens (if sign then ts.tail else ts) (if sign then us.tail else us) := by
    cases sign with
    | false => exact same
    | true =>
      apply bond.tail same
      intro ends
      rw [ends] at signed
      cases signed
  apply bond.branch (bond.is rest .number)
  · intro digits
    rw [bond.value rest]
    exact bond.done (alike.number (alike.union (bond.span same) (bond.span rest)))
      (bond.pass rest digits (by decide))
  · intro _
    rw [bond.kind rest]
    exact bond.fail (bond.span rest)

section Step

variable (all : Linked bond n)

include all

theorem function_linked (same : bond.tokens ts us) :
    bond.outcome alike.function (Parser.function s (n + 1) ts) (Parser.function t (n + 1) us) := by
  simp only [Parser.function]
  rw [bond.kind same, bond.value same]
  apply bond.branch Iff.rfl
  · intro _
    exact bond.fail (bond.span same)
  · intro word
    have start := alike.named (n := (t.peek us).value) (bond.span same)
    have rest : bond.tokens ts.tail us.tail := by
      apply bond.pass same (k := .identifier) _ (by decide)
      simpa using word
    have called := bond.branch (bond.is rest .lparen)
      (fun opens => all.parameters start (bond.pass rest opens (by decide)))
      (fun _ => bond.done start rest)
    apply bond.andThen called
    intro f f' ts us like rest
    apply bond.branch (bond.is rest .lbrace)
    · intro opens
      exact all.operands like (bond.pass rest opens (by decide))
    · intro _
      exact bond.done like rest

theorem parameters_linked {f f' : Function} (like : alike.function f f') (same : bond.tokens ts us) :
    bond.outcome alike.function (Parser.parameters s (n + 1) f ts)
      (Parser.parameters t (n + 1) f' us) := by
  simp only [Parser.parameters]
  rw [bond.kind same]
  apply bond.branch Iff.rfl
  · intro closes
    exact bond.done (alike.cover like (bond.span same)) (bond.pass same closes (by decide))
  intro _
  apply bond.branch Iff.rfl
  · intro _
    exact bond.fail (bond.span same)
  intro word
  have next : bond.tokens ts.tail us.tail := by
    apply bond.pass same (k := .identifier) _ (by decide)
    simpa using word
  rw [bond.kind next]
  apply bond.branch Iff.rfl
  · intro _
    exact bond.fail (bond.span next)
  intro equals
  have behind : bond.tokens ts.tail.tail us.tail.tail := by
    apply bond.pass next (k := .assign) _ (by decide)
    simpa using equals
  apply bond.andThen (all.expression behind)
  intro e e' vs ws value rest
  have inner := alike.function? value
  generalize e.function? = found at inner
  generalize e'.function? = found' at inner
  cases inner with
  | some within =>
    dsimp only
    rw [alike.name within]
    exact bond.fail (alike.place (alike.single within))
  | none =>
    apply bond.andThen (bond.assign like (bond.value same) (bond.span same) value rest)
    intro g g' vs ws like rest
    rw [bond.kind rest]
    apply bond.branch Iff.rfl
    · intro _
      exact all.parameters like rest
    intro _
    apply bond.branch Iff.rfl
    · intro comma
      exact all.parameters like (bond.pass rest comma (by decide))
    · intro _
      exact bond.fail (bond.span rest)

theorem operands_linked {f f' : Function} (like : alike.function f f') (same : bond.tokens ts us) :
    bond.outcome alike.function (Parser.operands s (n + 1) f ts)
      (Parser.operands t (n + 1) f' us) := by
  simp only [Parser.operands]
  rw [bond.kind same]
  apply bond.branch Iff.rfl
  · intro closes
    exact bond.done (alike.cover like (bond.span same)) (bond.pass same closes (by decide))
  intro _
  apply bond.branch Iff.rfl
  · intro _
    exact bond.fail (bond.span same)
  intro _
  apply bond.andThen (all.expression same)
  intro e e' vs ws value rest
  rcases alike.operand value with ⟨g, g', rfl, rfl, within⟩ | ⟨other, other'⟩
  · dsimp only
    apply bond.branch (bond.is rest .eof)
    · intro _
      exact bond.fail (bond.span rest)
    · intro _
      have whole := alike.addOperand like within
      exact all.operands (alike.cover whole (alike.place (alike.single within))) rest
  · split
    · exact absurd rfl (other _)
    · rw [alike.describe value]
      exact bond.fail (alike.place value)

theorem factor_linked (same : bond.tokens ts us) :
    bond.outcome alike.node (Parser.factor s (n + 1) ts) (Parser.factor t (n + 1) us) := by
  simp only [Parser.factor]
  rw [bond.kind same]
  split
  · exact bond.number_linked same
  · exact bond.number_linked same
  · exact bond.number_linked same
  · rename_i opens
    have inner : bond.tokens ts.tail us.tail := bond.tail same (opens ▸ by decide)
    apply bond.andThen (all.expression inner)
    intro e e' vs ws value rest
    apply bond.branch (bond.is rest .rparen)
    · intro closes
      exact bond.done value (bond.pass rest closes (by decide))
    · intro _
      exact bond.fail (bond.span rest)
  · apply bond.andThen (all.function same)
    intro f f' vs ws like rest
    exact bond.done (alike.single like) rest
  · exact bond.fail (bond.span same)

omit all in
theorem chain_linked (binds : Kind → Bool) (proper : binds .eof = false) {e e' : Node}
    {operand operand' : List Token → Outcome Node} {chain chain' : Node → List Token → Outcome Node}
    (right : ∀ {ts us}, bond.tokens ts us → bond.outcome alike.node (operand ts) (operand' us))
    (goes : ∀ {e e' ts us}, alike.node e e' → bond.tokens ts us →
      bond.outcome alike.node (chain e ts) (chain' e' us))
    (left : alike.node e e') (same : bond.tokens ts us) :
    bond.outcome alike.node
      (if binds (s.peek ts).kind then
        (operand ts.tail).andThen fun r rest => chain (operator (s.peek ts) e r) rest
      else Outcome.done e ts)
      (if binds (t.peek us).kind then
        (operand' us.tail).andThen fun r rest => chain' (operator (t.peek us) e' r) rest
      else Outcome.done e' us) := by
  unfold operator
  rw [bond.kind same]
  apply bond.branch Iff.rfl
  · intro sign
    have rest : bond.tokens ts.tail us.tail := by
      apply bond.tail same
      intro ends
      rw [ends, proper] at sign
      cases sign
    apply bond.andThen (right rest)
    intro r r' vs ws last rest
    have before := alike.union (alike.place left) (bond.span same)
    exact goes (alike.operator left last (alike.union before (alike.place last))) rest
  · intro _
    exact bond.done left same

theorem sumFrom_linked {e e' : Node} (left : alike.node e e') (same : bond.tokens ts us) :
    bond.outcome alike.node (Parser.sumFrom s (n + 1) e ts) (Parser.sumFrom t (n + 1) e' us) := by
  simp only [Parser.sumFrom]
  exact bond.chain_linked (fun k => k == .plus || k == .minus) rfl all.term all.sumFrom left same

theorem productFrom_linked {e e' : Node} (left : alike.node e e') (same : bond.tokens ts us) :
    bond.outcome alike.node (Parser.productFrom s (n + 1) e ts)
      (Parser.productFrom t (n + 1) e' us) := by
  simp only [Parser.productFrom]
  exact bond.chain_linked (fun k => k == .star || k == .slash) rfl all.factor all.productFrom
    left same

theorem term_linked (same : bond.tokens ts us) :
    bond.outcome alike.node (Parser.term s (n + 1) ts) (Parser.term t (n + 1) us) := by
  simp only [Parser.term]
  exact bond.andThen (all.factor same) fun left rest => all.productFrom left rest

theorem expression_linked (same : bond.tokens ts us) :
    bond.outcome alike.node (Parser.expression s (n + 1) ts) (Parser.expression t (n + 1) us) := by
  simp only [Parser.expression]
  exact bond.andThen (all.term same) fun left rest => all.sumFrom left rest

end Step

/-- Whatever the fuel, the two runs stay alike. -/
theorem linked (n : Nat) : Linked bond n := by
  -- all parts of the parser at once: each calls the others with less fuel
  induction n with
  | zero =>
    constructor
    · exact fun same => bond.fail (bond.span same)
    · exact fun _ same => bond.fail (bond.span same)
    · exact fun _ same => bond.fail (bond.span same)
    · exact fun same => bond.fail (bond.span same)
    · exact fun _ same => bond.fail (bond.span same)
    · exact fun same => bond.fail (bond.span same)
    · exact fun _ same => bond.fail (bond.span same)
    · exact fun same => bond.fail (bond.span same)
  | succ n ih =>
    constructor
    · exact bond.function_linked ih
    · exact bond.parameters_linked ih
    · exact bond.operands_linked ih
    · exact bond.expression_linked ih
    · exact bond.sumFrom_linked ih
    · exact bond.term_linked ih
    · exact bond.productFrom_linked ih
    · exact bond.factor_linked ih

structure Documents (alike : Likeness) (d d' : Document) : Prop where
  operands : List.Forall₂ alike.function d.operands d'.operands
  span : alike.span d.span d'.span

theorem Documents.eq {d d' : Document} (like : Documents .exact d d') : d = d' := by
  obtain ⟨operands, span⟩ := d
  obtain ⟨all, place⟩ := like
  cases List.forall₂_eq_eq_eq ▸ all
  cases place
  rfl

theorem documentFrom_linked {d d' : Document} (like : Documents alike d d')
    (same : bond.tokens ts us) :
    bond.outcome (Documents alike) (documentFrom s n d ts) (documentFrom t n d' us) := by
  induction n generalizing d d' ts us with
  | zero => exact bond.fail (bond.span same)
  | succ n ih =>
    simp only [documentFrom]
    apply bond.andThen ((bond.linked n).function same)
    intro f f' vs ws within rest
    have whole : Documents alike (d.add f) (d'.add f') :=
      ⟨List.rel_append like.operands (.cons within .nil),
        alike.union like.span (alike.place (alike.single within))⟩
    apply bond.branch (bond.is rest .eof)
    · intro _
      exact bond.done whole rest
    · intro _
      exact ih whole rest

end Bond

end DistanceField.Parser
