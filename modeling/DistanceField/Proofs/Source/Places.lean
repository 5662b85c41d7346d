import DistanceField.Proofs.Source.Scanning

/-! Where the parts of an accepted tree stand: each spans some bytes of the text, the parts of a whole
lie in it one behind the other, and a function goes from its name to its last token. -/
namespace DistanceField

/-- At least one byte of a text of `len` bytes. -/
structure Interval.Within (len : Int) (i : Interval) : Prop where
  low : 0 ≤ i.min
  filled : i.min < i.max
  high : i.max ≤ len

/-- The interval `j` begins later than `i` and ends earlier. -/
structure Interval.Around (i j : Interval) : Prop where
  begins : i.min < j.min
  ends : j.max < i.max

/-- The parser reads `f` from some of the tokens, and `f` spans them: from its name on to its last
token, which is the name, the end of its parameters or the end of its operands. -/
def Parser.ReadFrom (strict : Bool) (ts : List Token) (f : Function) : Prop :=
  ∃ n before used after name last, ts = before ++ (used ++ after) ∧
    (Parser.function ⟨strict, finishOf ts⟩ n (used ++ after)).result = .ok (f, after) ∧
    used.head? = some name ∧ used.getLast? = some last ∧ name.kind = .identifier ∧
    f.name = name.value ∧ f.span = ⟨name.span.min, last.span.max⟩ ∧
    (used = [name] ∨ last.kind = .rparen ∨ last.kind = .rbrace)

def Ordered (fs : List Function) : Prop := fs.IsChain fun f g => f.span.max ≤ g.span.min

/-- All nodes of a tree stand as they should in a text of `len` bytes, and all functions in it are
owned by some of its tokens. -/
inductive Arranged (Own : Function → Prop) (len : Int) : Node → Prop where
  | number {v : Float} {i : Interval} (within : i.Within len) : Arranged Own len (.number v i)
  | operator {op : Kind} {l r : Node} (left : Arranged Own len l) (right : Arranged Own len r)
      (apart : l.span.max < r.span.min) (within : Interval.Within len ⟨l.span.min, r.span.max⟩) :
      Arranged Own len (.operator op l r ⟨l.span.min, r.span.max⟩)
  | function {f : Function} (own : Own f) (within : f.span.Within len)
      (values : ∀ p ∈ f.params, Arranged Own len p.2)
      (operands : ∀ g ∈ f.operands, Arranged Own len (.function g))
      (params : ∀ p ∈ f.params, f.span.Around p.2.span)
      (inner : ∀ g ∈ f.operands, f.span.Around g.span)
      (ahead : ∀ p ∈ f.params, ∀ g ∈ f.operands, p.2.span.max < g.span.min)
      (ordered : Ordered f.operands) : Arranged Own len (.function f)
  | root {fs : List Function} {first last : Function} (head : fs.head? = some first)
      (tail : fs.getLast? = some last) (within : Interval.Within len ⟨first.span.min, last.span.max⟩)
      (functions : ∀ f ∈ fs, Arranged Own len (.function f)) (ordered : Ordered fs) :
      Arranged Own len (.root fs ⟨first.span.min, last.span.max⟩)

theorem Arranged.within {Own : Function → Prop} {len : Int} {e : Node} (arranged : Arranged Own len e) :
    e.span.Within len := by
  cases arranged <;> assumption

theorem Ordered.append {fs : List Function} {f : Function} (ordered : Ordered fs)
    (before : ∀ g ∈ fs, g.span.max ≤ f.span.min) : Ordered (fs ++ [f]) := by
  refine List.IsChain.append ordered (.singleton f) ?_
  intro g last h first
  obtain rfl : f = h := by simpa using first
  exact before g (List.mem_of_getLast? last)

namespace Parser

open Grammar

theorem ahead_append (us vs : List Token) (next : Kind) :
    ahead (us ++ vs) next = ahead us (ahead vs next) := by
  cases us <;> rfl

/-- Tokens as a scanned text has them, and a property that holds of all functions read from them. -/
structure Ground (strict : Bool) (Own : Function → Prop) (len lo : Int) (next : Kind)
    (us : List Token) : Prop where
  low : 0 ≤ lo
  laid : Laid lo us
  solid : ∀ t ∈ us, t.kind ≠ .eof → t.span.min < t.span.max
  high : reach lo us ≤ len
  owned : ∀ before used after f, us = before ++ (used ++ after) →
    Run strict .function (ahead after next) used (.function f) → Own f

section Grounds

variable {strict : Bool} {Own : Function → Prop} {len lo : Int} {next : Kind} {us vs : List Token}
  {t : Token}

theorem Ground.append (ground : Ground strict Own len lo next (us ++ vs)) :
    Ground strict Own len lo (ahead vs next) us ∧ Ground strict Own len (reach lo us) next vs := by
  obtain ⟨low, laid, solid, high, owned⟩ := ground
  obtain ⟨before, behind⟩ := laid_append.mp laid
  obtain ⟨first, second⟩ := List.forall_mem_append.mp solid
  rw [reach_append] at high
  constructor
  · refine ⟨low, before, first, behind.le_reach.trans high, ?_⟩
    rintro front used back f rfl run
    exact owned front used (back ++ vs) f (by simp) (ahead_append back vs next ▸ run)
  · refine ⟨low.trans before.le_reach, behind, second, high, ?_⟩
    rintro front used back f rfl run
    exact owned (us ++ front) used back f (by simp) run

theorem Ground.cons (ground : Ground strict Own len lo next (t :: us)) (proper : t.kind ≠ .eof) :
    lo ≤ t.span.min ∧ t.span.min < t.span.max ∧ Ground strict Own len t.span.max next us :=
  ⟨ground.laid.1.low, ground.solid t List.mem_cons_self proper,
    (@Ground.append _ _ _ _ _ [t] us ground).2⟩

end Grounds

/-- A function whose list is still being read: what it holds stands between `a` and `k`. -/
structure Draft (Own : Function → Prop) (len a k : Int) (f : Function) : Prop where
  values : ∀ p ∈ f.params, Arranged Own len p.2 ∧ a < p.2.span.min ∧ p.2.span.max ≤ k
  operands : ∀ g ∈ f.operands, Arranged Own len (.function g) ∧ a < g.span.min ∧ g.span.max ≤ k
  ahead : ∀ p ∈ f.params, ∀ g ∈ f.operands, p.2.span.max < g.span.min
  ordered : Ordered f.operands

section Drafts

variable {Own : Function → Prop} {len a k m : Int} {f g : Function} {e : Node}

theorem draft_named (t : Token) : Draft Own len a k (named t) :=
  ⟨by simp [named, Function.params], by simp [named, Function.operands],
    by simp [named, Function.params], .nil⟩

theorem Draft.mono (draft : Draft Own len a k f) (le : k ≤ m) : Draft Own len a m f := by
  obtain ⟨values, operands, ahead, ordered⟩ := draft
  refine ⟨fun p found => ?_, fun g found => ?_, ahead, ordered⟩
  · obtain ⟨arranged, begins, ends⟩ := values p found
    exact ⟨arranged, begins, ends.trans le⟩
  · obtain ⟨arranged, begins, ends⟩ := operands g found
    exact ⟨arranged, begins, ends.trans le⟩

theorem Draft.cover (draft : Draft Own len a k f) (i : Interval) : Draft Own len a k (f.cover i) :=
  ⟨draft.values, draft.operands, draft.ahead, draft.ordered⟩

theorem Draft.assign (draft : Draft Own len a k f) (none : f.operands = [])
    (value : Arranged Own len e) (begins : a < e.span.min) (ends : e.span.max ≤ k) (n : Bytes) :
    Draft Own len a k (f.assign n e) := by
  have kept : (f.assign n e).operands = [] := (assign_operands f n e).trans none
  refine ⟨fun p found => ?_, by simp [kept], by simp [kept], by rw [kept]; exact .nil⟩
  rcases mem_assign found with old | new
  · exact draft.values p old
  · rw [new]
    exact ⟨value, begins, ends⟩

theorem Draft.addOperand (draft : Draft Own len a k f) (operand : Arranged Own len (.function g))
    (begins : a < g.span.min) (behind : k ≤ g.span.min)
    (apart : ∀ p ∈ f.params, p.2.span.max < g.span.min) :
    Draft Own len a g.span.max (f.addOperand g) := by
  have further : k ≤ g.span.max := behind.trans operand.within.filled.le
  obtain ⟨values, operands, ahead, ordered⟩ := draft.mono further
  refine ⟨values, ?_, fun p found => ?_, ?_⟩
  · exact List.forall_mem_append.mpr ⟨operands, by simp [operand, begins]⟩
  · exact List.forall_mem_append.mpr ⟨ahead p found, by simpa using apart p found⟩
  · exact ordered.append fun h found => (draft.operands h found).2.2.trans behind

end Drafts

/-- A function was read whose parts stand between `a` and some place before `hi`. -/
def Drafts (Own : Function → Prop) (len a hi : Int) (e : Node) : Prop :=
  ∃ f k, e = .function f ∧ k < hi ∧ Draft Own len a k f

/-- How a step on tokens from `lo` on arranges the tree that it returns. -/
def Task.Arranges (Own : Function → Prop) (len lo : Int) (us : List Token) (e : Node) : Task → Prop
  | .function | .value _ => Arranged Own len e
  | .chain _ l => Arranged Own len l → l.span.max ≤ lo → Arranged Own len e
  | .arguments f => ∀ a k, a < lo → k < lo → f.operands = [] → Draft Own len a k f →
    Drafts Own len a (reach lo us) e
  | .parameters f => ∀ a, a < lo → f.operands = [] → Draft Own len a lo f →
    Drafts Own len a (reach lo us) e
  | .block f => ∀ a k, a < lo → k < lo → Draft Own len a k f → Drafts Own len a (reach lo us) e
  | .operands f => ∀ a, a < lo → (∀ p ∈ f.params, p.2.span.max < lo) → Draft Own len a lo f →
    Drafts Own len a (reach lo us) e

section Arranging

variable {strict : Bool} {Own : Function → Prop} {len lo : Int}

theorem span_operator {l r : Node} {op : Token} (left : l.span.Within len) (right : r.span.Within len)
    (before : l.span.max ≤ op.span.min) (filled : op.span.min < op.span.max)
    (behind : op.span.max ≤ r.span.min) :
    (l.span.union op.span).union r.span = ⟨l.span.min, r.span.max⟩ := by
  have mark : l.span.union op.span = ⟨l.span.min, op.span.max⟩ :=
    union_behind left.low left.filled.le ⟨before, filled.le⟩
  rw [mark]
  exact union_behind left.low ((left.filled.le.trans before).trans filled.le)
    ⟨behind, right.filled.le⟩

theorem arranged_operator {l r : Node} {op : Token} (left : Arranged Own len l)
    (right : Arranged Own len r) (before : l.span.max ≤ op.span.min)
    (filled : op.span.min < op.span.max) (behind : op.span.max ≤ r.span.min) :
    Arranged Own len (operator op l r) := by
  have first := left.within
  have second := right.within
  have apart : l.span.max < r.span.min := (before.trans_lt filled).trans_le behind
  rw [operator, span_operator first second before filled behind]
  exact .operator left right apart
    ⟨first.low, (first.filled.trans apart).trans second.filled, second.high⟩

theorem arranged_function {f : Function} {a k hi : Int} (own : Own f) (span : f.span = ⟨a, hi⟩)
    (within : f.span.Within len) (less : k < hi) (draft : Draft Own len a k f) :
    Arranged Own len (.function f) := by
  obtain ⟨values, operands, ahead, ordered⟩ := draft
  refine .function own within (fun p found => (values p found).1) (fun g found => (operands g found).1)
    (fun p found => ?_) (fun g found => ?_) ahead ordered
  · obtain ⟨-, begins, ends⟩ := values p found
    rw [span]
    exact ⟨begins, ends.trans_lt less⟩
  · obtain ⟨-, begins, ends⟩ := operands g found
    rw [span]
    exact ⟨begins, ends.trans_lt less⟩

/-- One step after the other, a run arranges its tree as the tokens are. -/
theorem Run.arranges {task : Task} {next : Kind} {us : List Token} {e : Node}
    (run : Run strict task next us e) (ground : Ground strict Own len lo next us) :
    task.Arranges Own len lo us e := by
  -- A function is not arranged before its last token is read: until then a draft holds its parts.
  induction run generalizing lo with
  | @function next us vs name f g is arguments block iha ihb =>
    have own : Own g := ground.owned [] _ [] g (by simp) (.function is arguments block)
    obtain ⟨_, _, same, span⟩ := (Run.function is arguments block).spans ground.low ground.laid
    cases same
    obtain ⟨start, filled, rest⟩ := ground.cons (by rw [is]; decide)
    obtain ⟨before, behind⟩ := rest.append
    obtain ⟨f, k, same, less, draft⟩ :=
      iha before name.span.min name.span.min filled filled rfl (draft_named name)
    cases same
    obtain ⟨g, m, same, less, draft⟩ := ihb behind name.span.min k
      (filled.trans_le before.laid.le_reach) less draft
    cases same
    rw [← reach_append] at less
    refine arranged_function own span ?_ less draft
    change g.span = _ at span
    rw [span]
    exact ⟨ground.low.trans start, filled.trans_le rest.laid.le_reach, ground.high⟩
  | bare alone =>
    intro a k begins less none draft
    exact ⟨_, k, rfl, less, draft⟩
  | plain alone =>
    intro a k begins less draft
    exact ⟨_, k, rfl, less, draft⟩
  | called opens _ ih =>
    obtain ⟨behind, filled, rest⟩ := ground.cons (by rw [opens]; decide)
    intro a k begins less none draft
    exact ih rest a (by omega) none (draft.mono (by omega))
  | braces opens _ ih =>
    obtain ⟨behind, filled, rest⟩ := ground.cons (by rw [opens]; decide)
    intro a k begins less draft
    refine ih rest a (by omega) (fun p found => ?_) (draft.mono (by omega))
    have ends := (draft.values p found).2.2
    omega
  | @closed next r f closes =>
    obtain ⟨behind, filled, -⟩ := ground.cons (by rw [closes]; decide)
    intro a begins none draft
    exact ⟨_, lo, rfl, behind.trans_lt filled, draft.cover r.span⟩
  | @ended next r f closes =>
    obtain ⟨behind, filled, -⟩ := ground.cons (by rw [closes]; decide)
    intro a begins apart draft
    exact ⟨_, lo, rfl, behind.trans_lt filled, draft.cover r.span⟩
  | @given next name eq us sep vs f g e is equals value arithmetic fresh separates rest ihv ihr =>
    obtain ⟨first, filled, others⟩ := ground.cons (by rw [is]; decide)
    obtain ⟨second, firm, others⟩ := others.cons (by rw [equals]; decide)
    obtain ⟨before, others⟩ := others.append
    obtain ⟨mid, behind⟩ := others.append
    have inside : Inside eq.span.max (reach eq.span.max us) e.span := value.spans before.low before.laid
    have further := mid.laid.le_reach
    have start := inside.low
    have longer := inside.high
    have through := before.laid.le_reach
    intro a begins none draft
    -- Whether the name is new or not, the value that is kept is the one that was just read.
    have grown := (draft.mono (m := reach (reach eq.span.max us) sep) (by omega)).assign none
      (ihv before) (by omega) (by omega) name.value
    have kept : (f.assign name.value e).operands = [] := (assign_operands f name.value e).trans none
    simp only [reach, reach_append]
    exact ihr behind a (by omega) kept (grown.cover e.span)
  | @operand next us vs f g h first rest ihf ihr =>
    obtain ⟨before, behind⟩ := ground.append
    have inside : Inside lo (reach lo us) g.span := first.spans before.low before.laid
    have start := inside.low
    have longer := inside.high
    intro a begins apart draft
    have grown := draft.addOperand (ihf before) (begins.trans_le start) start
      fun p found => (apart p found).trans_le start
    rw [reach_append]
    refine ihr behind a (begins.trans_le before.laid.le_reach) (fun p found => ?_)
      ((grown.mono longer).cover g.span)
    exact (apart p found).trans_le before.laid.le_reach
  | @value level next us vs l e loose first rest ihf ihr =>
    obtain ⟨before, behind⟩ := ground.append
    have inside : Inside lo (reach lo us) l.span := first.spans before.low before.laid
    exact ihr behind (ihf before) inside.high
  | stop => exact fun arranged _ => arranged
  | @operate level next op us vs l r e sign right rest ihr ihc =>
    obtain ⟨start, filled, others⟩ := ground.cons sign.proper
    obtain ⟨before, behind⟩ := others.append
    have inside : Inside op.span.max (reach op.span.max us) r.span := right.spans before.low before.laid
    intro left ends
    have value := ihr before
    refine ihc behind (arranged_operator left value (ends.trans start) filled inside.low) ?_
    rw [operator, Node.span, span_operator left.within value.within (ends.trans start) filled inside.low]
    exact inside.high
  | @number next t digits =>
    obtain ⟨start, filled, -⟩ := ground.cons (by rw [digits]; decide)
    have whole : t.span.union t.span = t.span := by
      have own : t.span.From lo := ⟨start, filled.le⟩
      rw [union_eq ground.low own own, min_self, max_self]
    rw [whole]
    exact .number ⟨ground.low.trans start, filled, ground.high⟩
  | @signed next t n sign digits =>
    obtain ⟨start, filled, rest⟩ := ground.cons (by rcases sign with is | is <;> rw [is] <;> decide)
    obtain ⟨behind, firm, -⟩ := rest.cons (by rw [digits]; decide)
    have zero : 0 ≤ t.span.min := ground.low.trans start
    rw [union_behind zero filled.le ⟨behind, firm.le⟩]
    exact .number ⟨zero, (filled.trans_le behind).trans firm, rest.high⟩
  | @group next l r us e opens inner closes ih =>
    obtain ⟨-, -, rest⟩ := ground.cons (by rw [opens]; decide)
    have within := rest.append.1
    have closing : ahead [r] next = .rparen := closes
    rw [closing] at within
    exact ih within
  | single _ ih => exact ih ground

end Arranging

section Reading

variable {strict : Bool} {us vs : List Token} {k : Kind}

def Ends (k : Kind) (us : List Token) : Prop := ∃ r, us.getLast? = some r ∧ r.kind = k

theorem ends_singleton {r : Token} (is : r.kind = k) : Ends k [r] := ⟨r, rfl, is⟩

theorem Ends.behind (ends : Ends k vs) (us : List Token) : Ends k (us ++ vs) := by
  obtain ⟨r, last, is⟩ := ends
  exact ⟨r, by rw [List.getLast?_append, last, Option.some_or], is⟩

theorem Ends.last {t : Token} (ends : Ends k us) (final : us.getLast? = some t) : t.kind = k := by
  obtain ⟨r, last, is⟩ := ends
  rw [final] at last
  cases last
  exact is

/-- A step keeps the name of its function, and ends a list with the token that closes it. -/
def Task.Closes (us : List Token) (e : Node) : Task → Prop
  | .function => ∃ name rest g, us = name :: rest ∧ name.kind = .identifier ∧ e = .function g ∧
    g.name = name.value ∧ (rest = [] ∨ Ends .rparen us ∨ Ends .rbrace us)
  | .arguments f => ∃ g, e = .function g ∧ g.name = f.name ∧ (us = [] ∨ Ends .rparen us)
  | .block f => ∃ g, e = .function g ∧ g.name = f.name ∧ (us = [] ∨ Ends .rbrace us)
  | .parameters f => ∃ g, e = .function g ∧ g.name = f.name ∧ Ends .rparen us
  | .operands f => ∃ g, e = .function g ∧ g.name = f.name ∧ Ends .rbrace us
  | .value _ | .chain .. => True

theorem Run.closes {task : Task} {next : Kind} {e : Node} (run : Run strict task next us e) :
    task.Closes us e := by
  induction run with
  | @function next us vs name f g is _ _ iha ihb =>
    obtain ⟨f, same, kept, list⟩ := iha
    cases same
    obtain ⟨g, same, again, body⟩ := ihb
    cases same
    refine ⟨name, _, g, rfl, is, rfl, again.trans kept, ?_⟩
    rcases body with rfl | ends
    · rw [List.append_nil]
      exact list.imp_right fun ends => .inl (ends.behind [name])
    · exact .inr (.inr (ends.behind (name :: us)))
  | bare | plain => exact ⟨_, rfl, rfl, .inl rfl⟩
  | @called _ l _ _ _ _ _ ih | @braces _ l _ _ _ _ _ ih =>
    obtain ⟨g, same, kept, ends⟩ := ih
    exact ⟨g, same, kept, .inr (ends.behind [l])⟩
  | closed closes | ended closes => exact ⟨_, rfl, rfl, ends_singleton closes⟩
  | @given next name eq us sep vs f g e _ _ _ _ _ _ _ _ ihr =>
    obtain ⟨g, same, kept, ends⟩ := ihr
    refine ⟨g, same, kept.trans (assign_name f name.value e), ?_⟩
    exact ((ends.behind sep).behind us).behind [name, eq]
  | @operand next us _ _ _ _ _ _ _ ihr =>
    obtain ⟨g, same, kept, ends⟩ := ihr
    exact ⟨g, same, kept, ends.behind us⟩
  | value | stop | operate | number | signed | group | single => trivial

theorem reach_last {r : Token} (last : us.getLast? = some r) (lo : Int) : reach lo us = r.span.max := by
  obtain ⟨front, rfl⟩ := List.getLast?_eq_some_iff.mp last
  rw [reach_append]
  rfl

theorem readFrom_of_run {ts before used after : List Token} {f : Function} (laid : Laid 0 ts)
    (whole : ts = before ++ (used ++ after))
    (run : Run strict .function (ahead after .eof) used (.function f)) : ReadFrom strict ts f := by
  obtain ⟨name, rest, g, rfl, is, same, kept, ends⟩ := run.closes
  cases same
  obtain ⟨last, final⟩ : ∃ last, (name :: rest).getLast? = some last := ⟨_, List.getLast?_cons⟩
  rw [whole] at laid
  obtain ⟨front, others⟩ := laid_append.mp laid
  obtain ⟨t, more, same, span⟩ := run.spans front.le_reach (laid_append.mp others).1
  cases same
  rw [reach_last final] at span
  have closing : name :: rest = [name] ∨ last.kind = .rparen ∨ last.kind = .rbrace := by
    rcases ends with rfl | ends | ends
    · exact .inl rfl
    · exact .inr (.inl (ends.last final))
    · exact .inr (.inr (ends.last final))
  let s : Setting := ⟨strict, finishOf ts⟩
  have behind : (s.peek after).kind = ahead after .eof := by cases after <;> rfl
  have again : Run s.strict .function (ahead after .eof) (name :: rest) (.function f) := run
  have read := asNode_succeeds.mp (again.replays (8 * (name :: rest).length) after
    (by rw [Task.cost]; omega) behind)
  exact ⟨_, before, name :: rest, after, name, last, whole, read.result, rfl, final, is, kept, span,
    closing⟩

end Reading

section Documents

variable {Own : Function → Prop} {len lo : Int} {d : Document} {f : Function}

/-- A document so far: none, or one that is arranged before `lo`. -/
def Begun (Own : Function → Prop) (len lo : Int) (d : Document) : Prop :=
  d = ⟨[], .none⟩ ∨ Arranged Own len d.node ∧ ∀ f ∈ d.operands, f.span.max ≤ lo

theorem arranged_add (begun : Begun Own len lo d) (arranged : Arranged Own len (.function f))
    (behind : lo ≤ f.span.min) : Arranged Own len (d.add f).node := by
  have within := arranged.within
  rcases begun with rfl | ⟨earlier, before⟩
  · exact @Arranged.root _ _ [f] f f rfl rfl within (List.forall_mem_singleton.mpr arranged) (.singleton f)
  · obtain ⟨fs, span⟩ := d
    cases earlier with
    | @root _ first last head tail whole functions ordered =>
      have ends : last.span.max ≤ f.span.min := (before last (List.mem_of_getLast? tail)).trans behind
      rw [Document.node, Document.add, union_behind whole.low whole.filled.le ⟨ends, within.filled.le⟩]
      refine .root ?_ (List.getLast?_concat ..) ?_ ?_ ?_
      · rw [List.head?_append, head, Option.some_or]
      · exact ⟨whole.low, (whole.filled.trans_le ends).trans within.filled, within.high⟩
      · exact List.forall_mem_append.mpr ⟨functions, List.forall_mem_singleton.mpr arranged⟩
      · exact ordered.append fun g found => (before g found).trans behind

theorem documentFrom_arranges {s : Setting} (ends : s.finish.kind = .eof) {n : Nat}
    {ts rest : List Token} {d' : Document}
    (accepted : (documentFrom s n d ts).result = .ok (d', rest))
    (ground : Ground s.strict Own len lo .eof ts) (begun : Begun Own len lo d) :
    Arranged Own len d'.node := by
  induction n generalizing ts d lo with
  | zero => exact (Outcome.fail_ok accepted).elim
  | succ n ih =>
    rw [documentFrom] at accepted
    obtain ⟨f, mid, first, goes⟩ := Outcome.andThen_ok accepted
    obtain ⟨us, rfl, run⟩ := traced_all ends n .function (asNode_result first)
    have next : (s.peek mid).kind = ahead mid .eof := by
      cases mid with
      | nil => exact ends
      | cons t mid => rfl
    rw [next] at run
    obtain ⟨before, behind⟩ := ground.append
    have arranged : Arranged Own len (.function f) := run.arranges before
    obtain ⟨t, more, rfl, span⟩ := run.spans before.low before.laid
    change f.span = _ at span
    have start : lo ≤ f.span.min := by
      rw [span]
      exact before.laid.1.low
    have grown := arranged_add begun arranged start
    dsimp only at goes
    split at goes
    · obtain ⟨rfl, -⟩ := Outcome.done_ok goes
      exact grown
    · refine ih goes behind (.inr ⟨grown, List.forall_mem_append.mpr ⟨fun g found => ?_, ?_⟩⟩)
      · rcases begun with rfl | ⟨-, earlier⟩
        · cases found
        · exact (earlier g found).trans before.laid.le_reach
      · rw [List.forall_mem_singleton, span]

end Documents

end Parser

theorem parseTokens_arranges {strict : Bool} {Own : Function → Prop} {len : Int} {ts : List Token}
    {d : Document} (accepted : (parseTokens strict ts).result = .ok d)
    (ground : Parser.Ground strict Own len 0 .eof ts) : Arranged Own len d.node := by
  obtain ⟨rest, parsed⟩ := parseTokens_ok accepted
  exact Parser.documentFrom_arranges rfl parsed ground (.inl rfl)

theorem ground_of_scan {source : Bytes} {ts : List Token} (scanned : scan source = .ok ts)
    (strict : Bool) : Parser.Ground strict (Parser.ReadFrom strict ts) source.length 0 .eof ts := by
  have lexes : Lexer.Lexes 0 source ts := Lexer.lexes_of_scan scanned
  have laid : Parser.Laid 0 ts := lexes.laid
  obtain ⟨us, whole, -⟩ := lexes.last
  refine ⟨le_rfl, laid, ?_, ?_, ?_⟩
  · intro t found proper
    obtain ⟨before, after, placed⟩ := lexes.placed [] rfl found proper
    exact placed.filled.2.1
  · rw [whole, Parser.reach_append]
    simp [Parser.reach, Token.finish]
  · intro before used after f split run
    exact Parser.readFrom_of_run laid split run

/-- The tree of an accepted text is arranged in it, and each function in it is read from tokens of the
text that it spans. -/
theorem parse_arranged {strict : Bool} {source : Bytes} {d : Document}
    (accepted : (parse strict source).result = .ok d) :
    ∃ ts, scan source = .ok ts ∧ Arranged (Parser.ReadFrom strict ts) source.length d.node := by
  obtain ⟨ts, scanned, read⟩ := parse_ok accepted
  exact ⟨ts, scanned, parseTokens_arranges read (ground_of_scan scanned strict)⟩

/-- A text with signs, parentheses, a repeated parameter, and functions side by side. -/
def packed : Bytes := "a(x=(-1)*(2),y=3,x=+4/5)\x7b(b())c\x7d d()e"

theorem parse_arranged_packed :
    ∃ d, (parse false packed).result = .ok d ∧
      ∃ ts, scan packed = .ok ts ∧ Arranged (Parser.ReadFrom false ts) packed.length d.node := by
  have accepted : (parse false packed).result.isOk = true := by decide +kernel
  cases read : (parse false packed).result with
  | error c =>
    rw [read] at accepted
    cases accepted
  | ok d => exact ⟨d, rfl, parse_arranged read⟩

end DistanceField
