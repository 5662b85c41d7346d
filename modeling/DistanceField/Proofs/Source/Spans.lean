import DistanceField.Proofs.Source.Replay

/-! Where the parts of a tree stand: all functions in it are read from tokens of their own, they span
those tokens, and moving the tokens moves the tree. -/
namespace DistanceField

structure Interval.From (k : Int) (i : Interval) : Prop where
  low : k ≤ i.min
  filled : i.min ≤ i.max

def Interval.down (k : Int) (i : Interval) : Interval := ⟨i.min - k, i.max - k⟩

def Token.down (k : Int) (t : Token) : Token := { t with span := t.span.down k }

mutual

def Node.down (k : Int) : Node → Node
  | .missing => .missing
  | .number v i => .number v (i.down k)
  | .operator op l r i => .operator op (l.down k) (r.down k) (i.down k)
  | .function f => .function (f.down k)
  | .root fs i => .root (downAll k fs) (i.down k)

def Function.down (k : Int) : Function → Function
  | .mk name params operands i => .mk name (downParams k params) (downAll k operands) (i.down k)

def downParams (k : Int) : List (Bytes × Node) → List (Bytes × Node)
  | [] => []
  | (n, e) :: rest => (n, e.down k) :: downParams k rest

def downAll (k : Int) : List Function → List Function
  | [] => []
  | f :: rest => f.down k :: downAll k rest

end

mutual

/-- All functions in a tree, each before those in it. -/
def Node.functions : Node → List Function
  | .missing | .number .. => []
  | .operator _ l r _ => l.functions ++ r.functions
  | .function f => f.functions
  | .root fs _ => functionsOf fs

def Function.functions : Function → List Function
  | .mk name params operands i =>
    .mk name params operands i :: (paramFunctions params ++ functionsOf operands)

def paramFunctions : List (Bytes × Node) → List Function
  | [] => []
  | (_, e) :: rest => e.functions ++ paramFunctions rest

def functionsOf : List Function → List Function
  | [] => []
  | f :: rest => f.functions ++ functionsOf rest

end

def Document.functions (d : Document) : List Function := functionsOf d.operands

section Moving

variable {k : Int} {i j : Interval}

theorem Interval.From.isEmpty (low : 0 ≤ k) (proper : i.From k) : i.isEmpty = false := by
  have := proper.low
  have := proper.filled
  simp only [Interval.isEmpty, Bool.or_eq_false_iff, decide_eq_false_iff_not]
  omega

theorem union_eq (low : 0 ≤ k) (first : i.From k) (second : j.From k) :
    i.union j = ⟨min i.min j.min, max i.max j.max⟩ := by
  rw [Interval.union, first.isEmpty low, second.isEmpty low]
  rfl

theorem Interval.From.union (low : 0 ≤ k) (first : i.From k) (second : j.From k) :
    (i.union j).From k := by
  have := first.low
  have := first.filled
  have := second.low
  have := second.filled
  rw [union_eq low first second]
  constructor <;> dsimp only <;> omega

theorem Interval.From.down (first : i.From k) : (i.down k).From 0 := by
  have := first.low
  have := first.filled
  constructor <;> dsimp only [Interval.down] <;> omega

theorem down_union (low : 0 ≤ k) (first : i.From k) (second : j.From k) :
    (i.union j).down k = (i.down k).union (j.down k) := by
  rw [union_eq low first second, union_eq le_rfl first.down second.down, Interval.down,
    Interval.down, Interval.down, Int.sub_min_sub_right, Int.sub_max_sub_right]

theorem downAll_eq_map (fs : List Function) : downAll k fs = fs.map (Function.down k) := by
  induction fs with
  | nil => rfl
  | cons f fs ih => rw [downAll, ih, List.map_cons]

theorem downParams_eq_map (ps : List (Bytes × Node)) :
    downParams k ps = ps.map fun p => (p.1, p.2.down k) := by
  induction ps with
  | nil => rfl
  | cons p ps ih =>
    obtain ⟨n, e⟩ := p
    rw [downParams, ih, List.map_cons]

theorem down_eq (f : Function) : f.down k =
    .mk f.name (downParams k f.params) (downAll k f.operands) (f.span.down k) := by
  cases f
  rfl

theorem span_down (low : 0 ≤ k) {e : Node} (proper : e.span.From k) :
    (e.down k).span = e.span.down k := by
  cases e with
  | missing =>
    have below : k ≤ -1 := proper.low
    omega
  | number | operator | root => rfl
  | function f => cases f; rfl

theorem down_cover (low : 0 ≤ k) {f : Function} (own : f.span.From k) (other : i.From k) :
    (f.cover i).down k = (f.down k).cover (i.down k) := by
  rw [down_eq, down_eq f, Function.cover, Function.cover, Function.span, down_union low own other]
  rfl

theorem param?_down (f : Function) (n : Bytes) :
    (f.down k).param? n = (f.param? n).map (Node.down k) := by
  rw [down_eq, Function.param?, Function.param?, Function.params, downParams_eq_map]
  induction f.params with
  | nil => rfl
  | cons p ps ih =>
    obtain ⟨m, e⟩ := p
    rw [List.map_cons, List.lookup_cons, List.lookup_cons]
    cases n == m with
    | true => rfl
    | false => exact ih

theorem down_assign (f : Function) (n : Bytes) (e : Node) :
    (f.assign n e).down k = (f.down k).assign n (e.down k) := by
  have given : ((f.down k).param? n).isSome = (f.param? n).isSome := by
    rw [param?_down, Option.isSome_map]
  unfold Function.assign
  rw [given]
  cases f with
  | mk name params operands span =>
    dsimp only
    split
    · simp only [Function.down, Function.name, Function.params, Function.operands, Function.span,
        downParams_eq_map, List.map_map]
      congr 1
      apply List.map_congr_left
      intro p _
      dsimp only [Function.comp_apply]
      split <;> rfl
    · simp [Function.down, Function.name, Function.params, Function.operands, Function.span,
        downParams_eq_map]

theorem down_addOperand (f g : Function) :
    (f.addOperand g).down k = (f.down k).addOperand (g.down k) := by
  cases f
  simp [Function.addOperand, Function.down, Function.name, Function.params, Function.operands,
    Function.span, downAll_eq_map]

theorem function?_down (e : Node) : (e.down k).function? = e.function?.map (Function.down k) := by
  induction e using Node.function?.induct with
  | case1 f => rfl
  | case2 op l r i ihl ihr =>
    rw [Node.down, Node.function?, ihl, ihr, Node.function?, Option.map_or]
  | case3 e other no =>
    cases e with
    | missing | number | root => rfl
    | function f => exact absurd rfl (other f)
    | operator op l r i => exact absurd rfl (no op l r i)

end Moving

namespace Parser

open Grammar

theorem ahead_down (k : Int) (us : List Token) (next : Kind) :
    ahead (us.map (Token.down k)) next = ahead us next := by
  cases us <;> rfl

theorem Separates.down {next : Kind} {sep : List Token} (separates : Separates next sep) (k : Int) :
    Separates next (sep.map (Token.down k)) := by
  cases separates with
  | none ends => exact .none ends
  | comma is => exact .comma is

theorem assign_span (f : Function) (n : Bytes) (e : Node) : (f.assign n e).span = f.span := by
  unfold Function.assign
  dsimp only
  split <;> rfl

def Task.down (k : Int) : Task → Task
  | .function => .function
  | .arguments f => .arguments (f.down k)
  | .block f => .block (f.down k)
  | .parameters f => .parameters (f.down k)
  | .operands f => .operands (f.down k)
  | .value level => .value level
  | .chain level l => .chain level (l.down k)

def Task.From (k : Int) : Task → Prop
  | .function | .value _ => True
  | .arguments f | .block f | .parameters f | .operands f => f.span.From k
  | .chain _ l => l.span.From k

theorem down_operator {k : Int} (low : 0 ≤ k) {op : Token} {l r : Node} (sign : op.span.From k)
    (left : l.span.From k) (right : r.span.From k) :
    (operator op l r).down k = operator (op.down k) (l.down k) (r.down k) := by
  rw [operator, operator, Node.down, span_down low left, span_down low right,
    down_union low (left.union low sign) right, down_union low left sign]
  rfl

theorem Run.down {strict : Bool} {task : Task} {next : Kind} {us : List Token} {e : Node} {k : Int}
    (run : Run strict task next us e) (low : 0 ≤ k) (all : ∀ t ∈ us, t.span.From k)
    (start : task.From k) :
    Run strict (task.down k) next (us.map (Token.down k)) (e.down k) ∧ e.span.From k := by
  induction run with
  | @function next us vs name f g is arguments block iha ihb =>
    obtain ⟨own, rest⟩ := List.forall_mem_cons.mp all
    obtain ⟨before, behind⟩ := List.forall_mem_append.mp rest
    obtain ⟨first, placed⟩ := iha before own
    obtain ⟨second, whole⟩ := ihb behind placed
    rw [List.map_cons, List.map_append]
    exact ⟨.function is (ahead_down k vs next ▸ first) second, whole⟩
  | bare alone => exact ⟨.bare alone, start⟩
  | called opens _ ih =>
    obtain ⟨inner, placed⟩ := ih (List.forall_mem_cons.mp all).2 start
    exact ⟨.called opens inner, placed⟩
  | plain alone => exact ⟨.plain alone, start⟩
  | braces opens _ ih =>
    obtain ⟨inner, placed⟩ := ih (List.forall_mem_cons.mp all).2 start
    exact ⟨.braces opens inner, placed⟩
  | @closed next r f closes =>
    have last := List.forall_mem_singleton.mp all
    refine ⟨?_, start.union low last⟩
    rw [Node.down, down_cover low start last]
    exact .closed closes
  | @given next name eq us sep vs f g e is equals value arithmetic fresh separates rest ihv ihr =>
    obtain ⟨-, rest⟩ := List.forall_mem_cons.mp all
    obtain ⟨-, rest⟩ := List.forall_mem_cons.mp rest
    obtain ⟨before, rest⟩ := List.forall_mem_append.mp rest
    obtain ⟨-, behind⟩ := List.forall_mem_append.mp rest
    obtain ⟨read, placed⟩ := ihv before trivial
    have own : (f.assign name.value e).span.From k := (assign_span f name.value e).symm ▸ start
    obtain ⟨more, whole⟩ := ihr behind (own.union low placed)
    rw [Task.down, down_cover low own placed, down_assign, ← span_down low placed] at more
    simp only [List.map_cons, List.map_append]
    refine ⟨.given is equals ?_ ?_ ?_ ?_ more, whole⟩
    · rw [← List.map_append, ahead_down]
      exact read
    · rw [function?_down, arithmetic]
      rfl
    · rw [param?_down, Option.isSome_map]
      exact fresh
    · rw [ahead_down]
      exact separates.down k
  | @ended next r f closes =>
    have last := List.forall_mem_singleton.mp all
    refine ⟨?_, start.union low last⟩
    rw [Node.down, down_cover low start last]
    exact .ended closes
  | @operand next us vs f g h first rest ihf ihr =>
    obtain ⟨before, behind⟩ := List.forall_mem_append.mp all
    obtain ⟨read, placed⟩ := ihf before trivial
    change g.span.From k at placed
    have own : (f.addOperand g).span.From k := start
    obtain ⟨more, whole⟩ := ihr behind (own.union low placed)
    have moved : ((f.addOperand g).cover g.span).down k =
        ((f.down k).addOperand (g.down k)).cover (g.down k).span := by
      rw [down_cover low own placed, down_addOperand, down_eq g]
      rfl
    rw [Task.down, moved] at more
    rw [List.map_append]
    exact ⟨.operand (ahead_down k vs next ▸ read) more, whole⟩
  | @value level next us vs l e loose first rest ihf ihr =>
    obtain ⟨before, behind⟩ := List.forall_mem_append.mp all
    obtain ⟨read, placed⟩ := ihf before trivial
    obtain ⟨more, whole⟩ := ihr behind placed
    rw [List.map_append]
    exact ⟨.value loose (ahead_down k vs next ▸ read) more, whole⟩
  | stop other => exact ⟨.stop other, start⟩
  | @operate level next op us vs l r e sign right rest ihr ihc =>
    obtain ⟨own, others⟩ := List.forall_mem_cons.mp all
    obtain ⟨before, behind⟩ := List.forall_mem_append.mp others
    obtain ⟨read, placed⟩ := ihr before trivial
    obtain ⟨more, whole⟩ := ihc behind ((start.union low own).union low placed)
    rw [Task.down, down_operator low own start placed] at more
    rw [List.map_cons, List.map_append]
    exact ⟨.operate sign (ahead_down k vs next ▸ read) more, whole⟩
  | @number next t digits =>
    have own := List.forall_mem_singleton.mp all
    refine ⟨?_, own.union low own⟩
    rw [Node.down, down_union low own own]
    exact .number digits
  | @signed next t n sign digits =>
    obtain ⟨first, rest⟩ := List.forall_mem_cons.mp all
    have second := List.forall_mem_singleton.mp rest
    refine ⟨?_, first.union low second⟩
    rw [Node.down, down_union low first second]
    exact .signed sign digits
  | @group next l r us e opens inner closes ih =>
    obtain ⟨-, rest⟩ := List.forall_mem_cons.mp all
    obtain ⟨before, -⟩ := List.forall_mem_append.mp rest
    obtain ⟨read, placed⟩ := ih before trivial
    rw [List.map_cons, List.map_append]
    exact ⟨.group opens read closes, placed⟩
  | single _ ih =>
    obtain ⟨read, placed⟩ := ih all trivial
    exact ⟨.single read, placed⟩

section Layout

/-- Tokens one behind the other, from `lo` on. -/
def Laid (lo : Int) : List Token → Prop
  | [] => True
  | t :: ts => t.span.From lo ∧ Laid t.span.max ts

def reach (lo : Int) : List Token → Int
  | [] => lo
  | t :: ts => reach t.span.max ts

variable {lo hi a b : Int} {us vs : List Token} {i j : Interval}

theorem reach_append (lo : Int) (us vs : List Token) :
    reach lo (us ++ vs) = reach (reach lo us) vs := by
  induction us generalizing lo with
  | nil => rfl
  | cons t us ih => exact ih t.span.max

theorem laid_append : Laid lo (us ++ vs) ↔ Laid lo us ∧ Laid (reach lo us) vs := by
  induction us generalizing lo with
  | nil => simp [Laid, reach]
  | cons t us ih => simp [Laid, reach, ih, and_assoc]

theorem Laid.le_reach (laid : Laid lo us) : lo ≤ reach lo us := by
  induction us generalizing lo with
  | nil => exact le_rfl
  | cons t us ih =>
    obtain ⟨first, rest⟩ := laid
    exact (first.low.trans first.filled).trans (ih rest)

theorem Laid.all_from (laid : Laid lo us) : ∀ t ∈ us, t.span.From lo := by
  induction us generalizing lo with
  | nil => nofun
  | cons t us ih =>
    obtain ⟨first, rest⟩ := laid
    refine List.forall_mem_cons.mpr ⟨first, fun u found => ?_⟩
    have later := ih rest u found
    exact ⟨(first.low.trans first.filled).trans later.low, later.filled⟩

structure Inside (lo hi : Int) (i : Interval) : Prop extends i.From lo where
  high : i.max ≤ hi

theorem Inside.mono (inside : Inside lo hi i) (before : a ≤ lo) (behind : hi ≤ b) :
    Inside a b i :=
  ⟨⟨before.trans inside.low, inside.filled⟩, inside.high.trans behind⟩

theorem Inside.union (low : 0 ≤ lo) (first : Inside lo hi i) (second : Inside lo hi j) :
    Inside lo hi (i.union j) := by
  refine ⟨first.toFrom.union low second.toFrom, ?_⟩
  rw [union_eq low first.toFrom second.toFrom]
  exact max_le first.high second.high

theorem union_behind (low : 0 ≤ a) (le : a ≤ b) (behind : j.From b) :
    Interval.union ⟨a, b⟩ j = ⟨a, j.max⟩ := by
  have first : Interval.From a ⟨a, b⟩ := ⟨le_rfl, le⟩
  have second : j.From a := ⟨le.trans behind.low, behind.filled⟩
  have before : a ≤ j.min := le.trans behind.low
  have longer : b ≤ j.max := behind.low.trans behind.filled
  rw [union_eq low first second, min_eq_left before, max_eq_right longer]

/-- Where a step leaves the span of its tree, on tokens from `lo` on. Parentheses are not spanned. -/
def Task.Spans (lo : Int) (us : List Token) (e : Node) : Task → Prop
  | .function => ∃ t ts, us = t :: ts ∧ e.span = ⟨t.span.min, reach lo us⟩
  | .arguments f | .block f => ∀ a, 0 ≤ a → a ≤ lo → f.span = ⟨a, lo⟩ → e.span = ⟨a, reach lo us⟩
  | .parameters f | .operands f =>
    ∀ a b, 0 ≤ a → a ≤ b → b ≤ lo → f.span = ⟨a, b⟩ → e.span = ⟨a, reach lo us⟩
  | .value _ => Inside lo (reach lo us) e.span
  | .chain _ l => ∀ a, 0 ≤ a → Inside a lo l.span → Inside a (reach lo us) e.span

theorem span_cover {f : Function} (low : 0 ≤ a) (le : a ≤ b) (own : f.span = ⟨a, b⟩)
    (behind : i.From b) : (f.cover i).span = ⟨a, i.max⟩ := by
  rw [Function.cover, Function.span, own]
  exact union_behind low le behind

theorem Run.spans {strict : Bool} {task : Task} {next : Kind} {e : Node}
    (run : Run strict task next us e) (low : 0 ≤ lo) (laid : Laid lo us) :
    task.Spans lo us e := by
  induction run generalizing lo with
  | @function next us vs name f g is arguments block iha ihb =>
    obtain ⟨own, rest⟩ := laid
    obtain ⟨before, behind⟩ := laid_append.mp rest
    have start : 0 ≤ name.span.min := low.trans own.low
    have first := iha (start.trans own.filled) before _ start own.filled rfl
    have le := own.filled.trans before.le_reach
    have second := ihb ((start.trans own.filled).trans before.le_reach) behind _ start le first
    refine ⟨name, _, rfl, ?_⟩
    rw [second, reach, reach_append]
  | bare | plain => exact fun a _ _ own => own
  | @called next l us f g opens list ih | @braces next l us f g opens list ih =>
    obtain ⟨first, rest⟩ := laid
    intro a zero le own
    exact ih ((low.trans first.low).trans first.filled) rest a lo zero le
      (first.low.trans first.filled) own
  | closed | ended =>
    obtain ⟨last, -⟩ := laid
    intro a b zero le before own
    exact span_cover zero le own ⟨before.trans last.low, last.filled⟩
  | @given next name eq us sep vs f g e is equals value arithmetic fresh separates rest ihv ihr =>
    obtain ⟨first, others⟩ := laid
    obtain ⟨second, others⟩ := others
    obtain ⟨before, others⟩ := laid_append.mp others
    obtain ⟨mid, behind⟩ := laid_append.mp others
    intro a b zero le ahead own
    have start : lo ≤ eq.span.max :=
      ((first.low.trans first.filled).trans second.low).trans second.filled
    have inside := ihv (low.trans start) before
    have further := before.le_reach.trans mid.le_reach
    have covered : ((f.assign name.value e).cover e.span).span = ⟨a, e.span.max⟩ :=
      span_cover zero le ((assign_span f name.value e).trans own)
        ⟨(ahead.trans start).trans inside.low, inside.filled⟩
    have final := ihr ((low.trans start).trans further) behind a e.span.max zero
      (((le.trans ahead).trans start).trans (inside.low.trans inside.filled))
      (inside.high.trans mid.le_reach) covered
    rw [final, reach, reach, reach_append, reach_append]
  | @operand next us vs f g h first rest ihf ihr =>
    obtain ⟨before, behind⟩ := laid_append.mp laid
    intro a b zero le ahead own
    have inside := ihf low before
    have covered : ((f.addOperand g).cover g.span).span = ⟨a, g.span.max⟩ :=
      @span_cover a b g.span (f.addOperand g) zero le own ⟨ahead.trans inside.low, inside.filled⟩
    have final := ihr (low.trans before.le_reach) behind a g.span.max zero
      ((le.trans ahead).trans (inside.low.trans inside.filled)) inside.high covered
    rw [final, reach_append]
  | @value level next us vs l e loose first rest ihf ihr =>
    obtain ⟨before, behind⟩ := laid_append.mp laid
    have inside := ihf low before
    have whole := ihr (low.trans before.le_reach) behind lo low inside
    rw [Task.Spans, reach_append]
    exact whole
  | stop => exact fun a _ inside => inside
  | @operate level next op us vs l r e sign right rest ihr ihc =>
    obtain ⟨own, others⟩ := laid
    obtain ⟨before, behind⟩ := laid_append.mp others
    intro a zero inside
    have start : lo ≤ op.span.max := own.low.trans own.filled
    have ahead : a ≤ lo := (inside.low.trans inside.filled).trans inside.high
    have further := before.le_reach
    have left := inside.mono le_rfl (start.trans further)
    have mark : Inside a (reach op.span.max us) op.span :=
      ⟨⟨ahead.trans own.low, own.filled⟩, further⟩
    have last := (ihr (low.trans start) before).mono (ahead.trans start) le_rfl
    have whole := ihc ((low.trans start).trans further) behind a zero
      ((left.union zero mark).union zero last)
    rw [reach, reach_append]
    exact whole
  | number digits =>
    obtain ⟨own, -⟩ := laid
    have inside : Inside lo _ _ := ⟨own, le_rfl⟩
    exact inside.union low inside
  | @signed next t n sign digits =>
    obtain ⟨first, second, -⟩ := laid
    have start : lo ≤ t.span.max := first.low.trans first.filled
    have left : Inside lo n.span.max t.span := ⟨first, second.low.trans second.filled⟩
    have right : Inside lo n.span.max n.span := ⟨⟨start.trans second.low, second.filled⟩, le_rfl⟩
    exact left.union low right
  | @group next l r us e opens inner closes ih =>
    obtain ⟨first, others⟩ := laid
    obtain ⟨before, last, -⟩ := laid_append.mp others
    have start : lo ≤ l.span.max := first.low.trans first.filled
    rw [Task.Spans, reach, reach_append]
    exact (ih (low.trans start) before).mono start (last.low.trans last.filled)
  | @single next us f function ih =>
    obtain ⟨t, ts, rfl, span⟩ := ih low laid
    obtain ⟨own, rest⟩ := laid
    change f.span = _ at span
    change Inside lo _ f.span
    rw [span]
    exact ⟨⟨own.low, own.filled.trans rest.le_reach⟩, le_rfl⟩

end Layout

section Segments

def inner (f : Function) : List Function := paramFunctions f.params ++ functionsOf f.operands

theorem functions_eq (f : Function) : f.functions = f :: inner f := by
  cases f
  rw [Function.functions]
  rfl

theorem mem_functionsOf {fs : List Function} {h : Function} :
    h ∈ functionsOf fs ↔ ∃ f ∈ fs, h ∈ f.functions := by
  induction fs with
  | nil => simp [functionsOf]
  | cons f fs ih => simp [functionsOf, ih]

theorem mem_paramFunctions {ps : List (Bytes × Node)} {h : Function} :
    h ∈ paramFunctions ps ↔ ∃ p ∈ ps, h ∈ p.2.functions := by
  induction ps with
  | nil => simp [paramFunctions]
  | cons p ps ih =>
    obtain ⟨n, e⟩ := p
    simp [paramFunctions, ih]

theorem mem_assign {f : Function} {n : Bytes} {e : Node} {p : Bytes × Node}
    (member : p ∈ (f.assign n e).params) : p ∈ f.params ∨ p.2 = e := by
  unfold Function.assign at member
  dsimp only at member
  split at member
  · obtain ⟨q, old, rfl⟩ := List.mem_map.mp member
    split
    · exact .inr rfl
    · exact .inl old
  · rcases List.mem_append.mp member with old | new
    · exact .inl old
    · exact .inr (List.mem_singleton.mp new ▸ rfl)

theorem inner_assign {f h : Function} {n : Bytes} {e : Node} {i : Interval}
    (found : h ∈ inner ((f.assign n e).cover i)) : h ∈ inner f ∨ h ∈ e.functions := by
  have operands : ((f.assign n e).cover i).operands = f.operands := assign_operands f n e
  rw [inner, operands] at found
  rcases List.mem_append.mp found with param | operand
  · obtain ⟨p, member, within⟩ := mem_paramFunctions.mp param
    change p ∈ (f.assign n e).params at member
    rcases mem_assign member with old | new
    · exact .inl (List.mem_append_left _ (mem_paramFunctions.mpr ⟨p, old, within⟩))
    · exact .inr (new ▸ within)
  · exact .inl (List.mem_append_right _ operand)

theorem inner_addOperand {f g h : Function} {i : Interval}
    (found : h ∈ inner ((f.addOperand g).cover i)) : h ∈ inner f ∨ h ∈ g.functions := by
  rcases List.mem_append.mp found with param | operand
  · exact .inl (List.mem_append_left _ param)
  · obtain ⟨p, member, within⟩ := mem_functionsOf.mp operand
    rcases List.mem_append.mp member with old | new
    · exact .inl (List.mem_append_right _ (mem_functionsOf.mpr ⟨p, old, within⟩))
    · exact .inr (List.mem_singleton.mp new ▸ within)

/-- A function that is read from some of the tokens. -/
def Segment (strict : Bool) (us : List Token) (f : Function) : Prop :=
  ∃ before used after next, us = before ++ (used ++ after) ∧
    Run strict .function next used (.function f)

variable {strict : Bool} {us : List Token} {f : Function}

theorem Segment.append (segment : Segment strict us f) (before after : List Token) :
    Segment strict (before ++ (us ++ after)) f := by
  obtain ⟨front, used, back, next, rfl, run⟩ := segment
  exact ⟨before ++ front, used, back ++ after, next, by simp, run⟩

theorem Segment.left (segment : Segment strict us f) (after : List Token) :
    Segment strict (us ++ after) f := segment.append [] after

theorem Segment.right (segment : Segment strict us f) (before : List Token) :
    Segment strict (before ++ us) f := by
  simpa using segment.append before []

/-- The functions in the tree of a step that have to come from somewhere. -/
def Task.found : Task → Node → List Function
  | .arguments _, .function f | .block _, .function f | .parameters _, .function f
  | .operands _, .function f => inner f
  | _, e => e.functions

def Task.known : Task → List Function
  | .function | .value _ => []
  | .arguments f | .block f | .parameters f | .operands f => inner f
  | .chain _ l => l.functions

/-- Every function in the tree of a step was there before, or is read from some of the tokens. -/
theorem Run.segments {task : Task} {next : Kind} {e : Node} (run : Run strict task next us e)
    {h : Function} (found : h ∈ task.found e) : h ∈ task.known ∨ Segment strict us h := by
  induction run with
  | @function next us vs name f g is arguments block iha ihb =>
    right
    have found : h ∈ g.functions := found
    rw [functions_eq] at found
    rcases List.mem_cons.mp found with rfl | within
    · exact ⟨[], _, [], next, by simp, .function is arguments block⟩
    · rcases ihb within with before | segment
      · rcases iha before with none | segment
        · cases none
        · exact (segment.left vs).right [name]
      · exact segment.right (name :: us)
  | bare | plain | closed | ended | stop => exact .inl found
  | @called next l us f g opens list ih | @braces next l us f g opens list ih =>
    exact (ih found).imp_right fun segment => segment.right [l]
  | @given next name eq us sep vs f g e is equals value arithmetic fresh separates rest ihv ihr =>
    rcases ihr found with before | segment
    · rcases inner_assign before with old | within
      · exact .inl old
      · rcases ihv within with none | segment
        · cases none
        · exact .inr ((segment.left (sep ++ vs)).right [name, eq])
    · exact .inr (((segment.right sep).right us).right [name, eq])
  | @operand next us vs f g h first rest ihf ihr =>
    rcases ihr found with before | segment
    · rcases inner_addOperand before with old | within
      · exact .inl old
      · rcases ihf within with none | segment
        · cases none
        · exact .inr (segment.left vs)
    · exact .inr (segment.right us)
  | @value level next us vs l e loose first rest ihf ihr =>
    right
    rcases ihr found with within | segment
    · rcases ihf within with none | segment
      · cases none
      · exact segment.left vs
    · exact segment.right us
  | @operate level next op us vs l r e sign right rest ihr ihc =>
    rcases ihc found with before | segment
    · rcases List.mem_append.mp before with old | within
      · exact .inl old
      · rcases ihr within with none | segment
        · cases none
        · exact .inr ((segment.left vs).right [op])
    · exact .inr (segment.right (op :: us))
  | number | signed => cases found
  | @group next l r us e opens inner closes ih =>
    rcases ih found with none | segment
    · cases none
    · exact .inr ((segment.left [r]).right [l])
  | single _ ih => exact ih found

theorem documentFrom_segments {s : Setting} (ends : s.finish.kind = .eof) {n : Nat}
    {ts rest : List Token} {d d' : Document}
    (accepted : (documentFrom s n d ts).result = .ok (d', rest)) {h : Function}
    (found : h ∈ d'.functions) : h ∈ d.functions ∨ Segment s.strict ts h := by
  induction n generalizing ts d with
  | zero => exact (Outcome.fail_ok accepted).elim
  | succ n ih =>
    rw [documentFrom] at accepted
    obtain ⟨f, mid, first, goes⟩ := Outcome.andThen_ok accepted
    obtain ⟨us, whole, run⟩ := traced_all ends n .function (asNode_result first)
    have added (within : h ∈ (d.add f).functions) : h ∈ d.functions ∨ Segment s.strict ts h := by
      obtain ⟨g, member, inside⟩ := mem_functionsOf.mp within
      rcases List.mem_append.mp member with old | new
      · exact .inl (mem_functionsOf.mpr ⟨g, old, inside⟩)
      · rw [List.mem_singleton.mp new] at inside
        rcases run.segments inside with none | segment
        · cases none
        · exact .inr (whole ▸ segment.left mid)
    dsimp only at goes
    split at goes
    · obtain ⟨rfl, rfl⟩ := Outcome.done_ok goes
      exact added found
    · rcases ih goes with within | segment
      · exact added within
      · exact .inr (whole ▸ segment.right us)

end Segments

end Parser

/-- Every function in an accepted document is read from some of its tokens. -/
theorem parseTokens_segments {strict : Bool} {ts : List Token} {d : Document}
    (accepted : (parseTokens strict ts).result = .ok d) {f : Function} (found : f ∈ d.functions) :
    Parser.Segment strict ts f := by
  obtain ⟨rest, parsed⟩ := parseTokens_ok accepted
  rcases Parser.documentFrom_segments rfl parsed found with none | segment
  · cases none
  · exact segment

/-- The tokens of a function before the end of input make a document of it alone. -/
theorem parseTokens_single {strict : Bool} {next : Kind} {us : List Token} {f : Function}
    {finish : Token} (run : Parser.Run strict .function next us (.function f))
    (ends : finish.kind = .eof) :
    (parseTokens strict (us ++ [finish])).result = .ok ⟨[f], f.span⟩ := by
  let s : Parser.Setting := ⟨strict, finishOf (us ++ [finish])⟩
  have again : Parser.Run s.strict .function .eof us (.function f) := run.before_end
  have read := Parser.asNode_succeeds.mp (again.replays (8 * (us ++ [finish]).length + 7) [finish]
    (by rw [List.length_append, Parser.Task.cost]; omega) ends)
  have whole : Parser.Succeeds s (Parser.documentFrom s (8 * (us ++ [finish]).length + 8)
      ⟨[], .none⟩ (us ++ [finish])) ⟨[f], f.span⟩ [finish] := by
    rw [Parser.documentFrom]
    refine read.andThen ?_
    rw [Parser.peek_cons, ends]
    exact Parser.succeeds_done ..
  change Except.map _ (Parser.documentFrom s (8 * ((us ++ [finish]).length + 1)) _ _).result = _
  rw [Nat.mul_add, whole.result]
  rfl

end DistanceField
