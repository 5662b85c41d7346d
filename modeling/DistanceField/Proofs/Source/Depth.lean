import DistanceField.Proofs.Source.Following

/-! What the parser does at some depth it does at any greater depth. So where it ends, its outcome is that
of the procedures without a bound. -/
namespace DistanceField.Machine

/-- Where the first step ends, the second ends in the same way. -/
def Below {α : Type} (m m' : Step α) : Prop := ∀ p x, m p = some x → m' p = some x

/-- From some depth on the step ends so. -/
def Ends {α : Type} (m : Nat → Step α) (p : Machine) (r : Except Complaint α) (q : Machine) : Prop :=
  ∃ n, ∀ k ≥ n, m k p = some (r, q)

namespace Below

variable {α β : Type} {m m' : Step α}

theorem refl (m : Step α) : Below m m := fun _ _ ends => ends

theorem endless (m : Step α) : Below endless m := by
  intro p x ends
  cases ends

theorem bind {next next' : α → Step β} (first : Below m m') (rest : ∀ a, Below (next a) (next' a)) :
    Below (m >>= next) (m' >>= next') := by
  intro p x ends
  rcases run : m p with - | ⟨c | a, q⟩
  · rw [bind_none run] at ends
    cases ends
  · rw [bind_error run] at ends
    rw [bind_error (first p _ run), ends]
  · rw [bind_ok run] at ends
    rw [bind_ok (first p _ run)]
    exact rest a q x ends

theorem ite {c : Prop} [Decidable c] {l l' : Step α} (yes : Below m m') (no : Below l l') :
    Below (if c then m else l) (if c then m' else l') := by
  split
  · exact yes
  · exact no

end Below

section Rounds

variable {item item' : Step Node} (deeper : Below item item')

include deeper

theorem parameter_below (f : Function) : Below (parameter item f) (parameter item' f) := by
  refine (Below.refl look).bind fun name => .ite (.refl _) ((Below.refl advance).bind fun _ => ?_)
  refine (Below.refl look).bind fun eq => .ite (.refl _) ((Below.refl advance).bind fun _ => ?_)
  exact deeper.bind fun e => .refl _

theorem operand_below (f : Function) : Below (operand item f) (operand item' f) := by
  refine (Below.refl look).bind fun t => .ite (.refl _) ?_
  exact deeper.bind fun e => .refl _

theorem joined_below (e : Node) : Below (joined item e) (joined item' e) := by
  refine (Below.refl look).bind fun op => (Below.refl advance).bind fun _ => ?_
  exact deeper.bind fun r => .refl _

end Rounds

theorem list_below (close : Kind) {round round' again again' : Function → Step Function}
    (one : ∀ f, Below (round f) (round' f)) (more : ∀ f, Below (again f) (again' f)) (f : Function) :
    Below (list close round again f) (list close round' again' f) :=
  (Below.refl look).bind fun _ => .ite (.refl _) ((one f).bind more)

theorem chain_below (among : Kind → Bool) {round round' again again' : Node → Step Node}
    (one : ∀ e, Below (round e) (round' e)) (more : ∀ e, Below (again e) (again' e)) (e : Node) :
    Below (chain among round again e) (chain among round' again' e) :=
  (Below.refl look).bind fun _ => .ite ((one e).bind more) (.refl _)

theorem bracketed_below (kind : Kind) {inside inside' : Function → Step Function}
    (within : ∀ f, Below (inside f) (inside' f)) (f : Function) :
    Below (bracketed kind inside f) (bracketed kind inside' f) :=
  (Below.refl look).bind fun _ => .ite ((Below.refl advance).bind fun _ => within f) (.refl _)

/-- One call deeper, the procedures end where they did. -/
structure Deepens (n : Nat) : Prop where
  function : Below (function n) (function (n + 1))
  parameters : ∀ f, Below (parameters n f) (parameters (n + 1) f)
  operands : ∀ f, Below (operands n f) (operands (n + 1) f)
  expression : Below (expression n) (expression (n + 1))
  sums : ∀ e, Below (sums n e) (sums (n + 1) e)
  term : Below (term n) (term (n + 1))
  products : ∀ e, Below (products n e) (products (n + 1) e)
  factor : Below (factor n) (factor (n + 1))

section Deeper

variable {n : Nat} (all : Deepens n)

include all

theorem function_below : Below (function (n + 1)) (function (n + 2)) := by
  rw [function, function]
  refine (Below.refl look).bind fun t => .ite (.refl _) ((Below.refl advance).bind fun _ => ?_)
  exact (bracketed_below .lparen all.parameters _).bind (bracketed_below .lbrace all.operands)

theorem factor_below : Below (factor (n + 1)) (factor (n + 2)) := by
  rw [factor, factor]
  refine (Below.refl look).bind fun t => ?_
  cases t.kind with
  | lparen =>
    refine (Below.refl advance).bind fun _ => ?_
    exact all.expression.bind fun e => .refl _
  | identifier => exact all.function.bind fun f => .refl _
  | _ => exact .refl _

end Deeper

theorem deepens (n : Nat) : Deepens n := by
  induction n with
  | zero =>
    constructor
    all_goals intros; exact .endless _
  | succ n all =>
    constructor
    case function => exact function_below all
    case parameters =>
      intro f
      rw [parameters, parameters]
      exact list_below .rparen (parameter_below all.expression) all.parameters f
    case operands =>
      intro f
      rw [operands, operands]
      exact list_below .rbrace (operand_below all.expression) all.operands f
    case expression =>
      rw [expression, expression]
      exact all.term.bind all.sums
    case sums =>
      intro e
      rw [sums, sums]
      exact chain_below _ (joined_below all.term) all.sums e
    case term =>
      rw [term, term]
      exact all.factor.bind all.products
    case products =>
      intro e
      rw [products, products]
      exact chain_below _ (joined_below all.factor) all.products e
    case factor => exact factor_below all

theorem piece_below {function function' : Step Function} (deeper : Below function function')
    (d : Document) : Below (piece function d) (piece function' d) :=
  deeper.bind fun _ => .refl _

theorem document_below (n : Nat) (d : Document) : Below (document n d) (document (n + 1) d) := by
  induction n generalizing d with
  | zero => exact .endless _
  | succ n ih =>
    rw [document, document]
    refine (piece_below (deepens n).function d).bind fun d => ?_
    exact (Below.refl look).bind fun _ => .ite (.refl _) (ih d)

theorem parse_below (n : Nat) : Below (parse n) (parse (n + 1)) :=
  (Below.refl _).bind fun _ => document_below n _

section Depths

variable {α : Type} {m : Nat → Step α} (deeper : ∀ n, Below (m n) (m (n + 1)))

include deeper

theorem Below.ge {n k : Nat} (more : n ≤ k) : Below (m n) (m k) := by
  induction more with
  | refl => exact .refl _
  | step _ ih => exact fun p x ends => deeper _ p x (ih p x ends)

theorem Ends.of_run {n : Nat} {p q : Machine} {r : Except Complaint α} (run : m n p = some (r, q)) :
    Ends m p r q := ⟨n, fun _ more => Below.ge deeper more p _ run⟩

end Depths

theorem Ends.unique {α : Type} {m : Nat → Step α} {p q q' : Machine} {r r' : Except Complaint α}
    (first : Ends m p r q) (second : Ends m p r' q') : r = r' ∧ q = q' := by
  obtain ⟨n, run⟩ := first
  obtain ⟨k, again⟩ := second
  have same := (run (max n k) (Nat.le_max_left ..)).symm.trans (again _ (Nat.le_max_right ..))
  cases same
  exact ⟨rfl, rfl⟩

end DistanceField.Machine
