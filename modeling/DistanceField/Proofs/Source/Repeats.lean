import DistanceField.Proofs.Source.Replay

/-! The warnings of an accepted text: one for each name that stands before in the same parameter
list, in the order of the text. -/
namespace DistanceField

section Positions

variable (ts : List Token)

def kindAt (i : Nat) : Option Kind := ts[i]?.map Token.kind

def valueAt (i : Nat) : Bytes := (ts[i]?.map Token.value).getD []

def givesAt (i : Nat) : Bool := kindAt ts i == some .identifier && kindAt ts (i + 1) == some .assign

def opensAt (i : Nat) : Bool := kindAt ts i == some .identifier && kindAt ts (i + 1) == some .lparen

/-- The last name with a parameter list before a position: as such lists hold no other lists, it is
the owner of the parameters at that position. -/
def ownerAt : Nat → Option Nat
  | 0 => none
  | i + 1 => if opensAt ts i then some i else ownerAt i

/-- A parameter whose name stands before in the same list. -/
def repeatsAt (i : Nat) : Bool :=
  givesAt ts i && (List.range i).any fun j =>
    givesAt ts j && ownerAt ts j == ownerAt ts i && valueAt ts j == valueAt ts i

def remarkAt (i : Nat) : Warning :=
  ⟨(Trouble.duplicateParameter (valueAt ts i) ((ownerAt ts i).elim [] (valueAt ts))).message,
    (ts[i]?.map Token.span).getD .none⟩

def remarks (i : Nat) (us : List Token) : List Warning :=
  ((List.range' i us.length).filter (repeatsAt ts)).map (remarkAt ts)

end Positions

variable {ts us vs rest : List Token} {t : Token} {i j n : Nat}

theorem remarks_append (ts : List Token) (i : Nat) (us vs : List Token) :
    remarks ts i (us ++ vs) = remarks ts i us ++ remarks ts (i + us.length) vs := by
  simp only [remarks, List.length_append, ← List.range'_append_1, List.filter_append,
    List.map_append]

theorem remarks_cons (ts : List Token) (i : Nat) (t : Token) (us : List Token) :
    remarks ts i (t :: us) = remarks ts i [t] ++ remarks ts (i + 1) us := remarks_append ts i [t] us

theorem at_split (split : ts.drop i = us ++ rest) (less : j < us.length) : ts[i + j]? = us[j]? := by
  rw [← List.getElem?_drop, split, List.getElem?_append_left less]

theorem at_front (split : ts.drop i = t :: rest) : ts[i]? = some t := by
  have first := congrArg (·[0]?) split
  simpa using first

theorem drop_behind (split : ts.drop i = us ++ rest) : ts.drop (i + us.length) = rest := by
  rw [← List.drop_drop, split, List.drop_left]

theorem drop_next (split : ts.drop i = t :: rest) : ts.drop (i + 1) = rest := by
  rw [← List.drop_drop, split, List.drop_one, List.tail_cons]

def Wordless (us : List Token) : Prop := ∀ t ∈ us, t.kind ≠ .identifier

theorem Wordless.kind_ne (quiet : Wordless us) (split : ts.drop i = us ++ rest) (low : i ≤ j)
    (high : j < i + us.length) : kindAt ts j ≠ some .identifier := by
  obtain ⟨k, rfl⟩ := Nat.exists_eq_add_of_le low
  intro is
  rw [kindAt, at_split split (by omega), Option.map_eq_some_iff] at is
  obtain ⟨t, found, word⟩ := is
  exact quiet t (List.mem_of_getElem? found) word

theorem not_givesAt (other : kindAt ts i ≠ some .identifier) : givesAt ts i = false := by
  simp [givesAt, other]

theorem not_opensAt (other : kindAt ts i ≠ some .identifier) : opensAt ts i = false := by
  simp [opensAt, other]

theorem remarks_nothing (none : ∀ j, i ≤ j → j < i + us.length → givesAt ts j = false) :
    remarks ts i us = [] := by
  simp only [remarks, List.map_eq_nil_iff, List.filter_eq_nil_iff, List.mem_range'_1]
  intro j inside
  simp [repeatsAt, none j inside.1 inside.2]

theorem Wordless.no_remarks (quiet : Wordless us) (split : ts.drop i = us ++ rest) :
    remarks ts i us = [] :=
  remarks_nothing fun _ low high => not_givesAt (quiet.kind_ne split low high)

theorem ownerAt_still (le : i ≤ j) (none : ∀ k, i ≤ k → k < j → opensAt ts k = false) :
    ownerAt ts j = ownerAt ts i := by
  induction j, le using Nat.le_induction with
  | base => rfl
  | succ j le ih =>
    rw [ownerAt, none j le (Nat.lt_succ_self j)]
    exact ih fun k low high => none k low (high.trans (Nat.lt_succ_self j))

theorem wordless_nil : Wordless [] := by
  simp [Wordless]

theorem wordless_singleton {k : Kind} (is : t.kind = k) (other : k ≠ .identifier) :
    Wordless [t] := by
  intro u found
  rw [List.mem_singleton.mp found, is]
  exact other

theorem Wordless.append (first : Wordless us) (second : Wordless vs) : Wordless (us ++ vs) := by
  intro t found
  rcases List.mem_append.mp found with left | right
  · exact first t left
  · exact second t right

theorem ownerAt_lt {k : Nat} (owner : ownerAt ts i = some k) : k < i := by
  induction i with
  | zero => cases owner
  | succ i ih =>
    rw [ownerAt] at owner
    split at owner
    · cases owner
      exact Nat.lt_succ_self _
    · exact (ih owner).trans (Nat.lt_succ_self i)

namespace Parser

open Grammar Outcome

/-- The parameters of `f` are those that its list gives before a position. -/
structure Collected (ts : List Token) (i : Nat) (f : Function) : Prop where
  owner : ∃ k, ownerAt ts i = some k ∧ valueAt ts k = f.name
  names : ∀ v, (f.param? v).isSome = true ↔
    ∃ j < i, givesAt ts j = true ∧ ownerAt ts j = ownerAt ts i ∧ valueAt ts j = v

theorem isSome_assign (f : Function) (n v : Bytes) (e : Node) :
    ((f.assign n e).param? v).isSome = true ↔ (f.param? v).isSome = true ∨ v = n := by
  unfold Function.assign
  dsimp only
  split
  · rename_i known
    simp only [Function.param?, Function.params, List.lookup_isSome_iff, List.mem_map] at known ⊢
    obtain ⟨p, member, same⟩ := known
    constructor
    · rintro ⟨_, ⟨q, found, rfl⟩, is⟩
      left
      refine ⟨q, found, ?_⟩
      split at is <;> exact is
    · rintro (⟨q, found, is⟩ | rfl)
      · refine ⟨_, ⟨q, found, rfl⟩, ?_⟩
        split <;> exact is
      · refine ⟨_, ⟨p, member, rfl⟩, ?_⟩
        split <;> exact same
  · simp [Function.param?, Function.params, List.lookup_isSome_iff, or_and_right, exists_or]

theorem collected_start {f : Function} (fresh : f.params = [])
    (word : kindAt ts i = some .identifier) (called : valueAt ts i = f.name)
    (opens : kindAt ts (i + 1) = some .lparen) : Collected ts (i + 2) f := by
  have mark : kindAt ts (i + 1) ≠ some .identifier := by simp [opens]
  have owner : ownerAt ts (i + 2) = some i := by
    simp [ownerAt, opensAt, word, opens]
  refine ⟨⟨i, owner, called⟩, fun v => ?_⟩
  simp only [Function.param?, fresh, List.lookup_nil, Option.isSome_none, Bool.false_eq_true,
    false_iff]
  rintro ⟨j, less, gives, same, -⟩
  have behind := ownerAt_lt (same.trans owner)
  obtain rfl : j = i + 1 := by omega
  rw [not_givesAt mark] at gives
  cases gives

namespace Collected

variable {f : Function}

theorem repeats (collected : Collected ts i f) (gives : givesAt ts i = true) :
    repeatsAt ts i = (f.param? (valueAt ts i)).isSome := by
  rw [Bool.eq_iff_iff, collected.names]
  simp [repeatsAt, gives, and_assoc]

theorem next (collected : Collected ts i f) (gives : givesAt ts i = true) (less : i < j)
    (quiet : ∀ k, i < k → k < j → kindAt ts k ≠ some .identifier) (e : Node) (span : Interval) :
    Collected ts j ((f.assign (valueAt ts i) e).cover span) := by
  have own : opensAt ts i = false := by
    simp only [givesAt, Bool.and_eq_true, beq_iff_eq] at gives
    simp [opensAt, gives.2]
  have owner : ownerAt ts j = ownerAt ts i := by
    apply ownerAt_still less.le
    intro k low high
    rcases Nat.eq_or_lt_of_le low with rfl | later
    · exact own
    · exact not_opensAt (quiet k later high)
  obtain ⟨k, before, called⟩ := collected.owner
  refine ⟨⟨k, owner.trans before, ?_⟩, fun v => ?_⟩
  · rw [called]
    exact (assign_name f _ e).symm
  · have either := isSome_assign f (valueAt ts i) v e
    rw [collected.names] at either
    rw [owner]
    refine either.trans ⟨?_, ?_⟩
    · rintro (⟨k, low, found⟩ | rfl)
      · exact ⟨k, low.trans less, found⟩
      · exact ⟨i, less, gives, rfl, rfl⟩
    · rintro ⟨k, low, found, same, is⟩
      rcases Nat.lt_trichotomy k i with before | rfl | behind
      · exact .inl ⟨k, before, found, same, is⟩
      · exact .inr is.symm
      · rw [not_givesAt (quiet k behind low)] at found
        cases found

end Collected

def Task.Ready (ts : List Token) (i : Nat) : Task → Prop
  | .arguments f =>
    f.params = [] ∧ ∃ j, i = j + 1 ∧ kindAt ts j = some .identifier ∧ valueAt ts j = f.name
  | .parameters f => Collected ts i f
  | .function | .block _ | .operands _ | .value _ | .chain .. => True

/-- The warnings of a step are those of its tokens. -/
def Noted (ts : List Token) (s : Setting) (task : Task) (next : Kind) (us : List Token) : Prop :=
  ∀ n i rest, 8 * us.length + task.cost ≤ n + 8 → (s.peek rest).kind = next → next ≠ .assign →
    ts.drop i = us ++ rest → task.Ready ts i →
    (task.outcome s n (us ++ rest)).warnings = remarks ts i us

theorem asNode_warnings (o : Outcome Function) : (asNode o).warnings = o.warnings := by
  unfold asNode andThen
  split
  · rfl
  · exact List.append_nil _

theorem andThen_warnings {α β : Type} {o : Outcome α} {next : α → List Token → Outcome β} {a : α}
    (first : o.result = .ok (a, rest)) :
    (o.andThen next).warnings = o.warnings ++ (next a rest).warnings := by
  rw [andThen, first]

theorem Run.front {strict : Bool} {task : Task} {next : Kind} {e : Node}
    (run : Run strict task next us e) (other : next ≠ .assign) : ahead us next ≠ .assign := by
  have joined (us vs : List Token) (k : Kind) : ahead (us ++ vs) k = ahead us (ahead vs k) := by
    cases us <;> rfl
  induction run with
  | function is | given is => exact fun equals => by cases is.symm.trans equals
  | bare | plain | stop => exact other
  | called opens | braces opens | group opens =>
    exact fun equals => by cases opens.symm.trans equals
  | closed closes | ended closes => exact fun equals => by cases closes.symm.trans equals
  | operand _ _ ihf ihr | value _ _ _ ihf ihr =>
    rw [joined]
    exact ihf (ihr other)
  | operate sign => exact sign.ne (by decide)
  | number digits => exact fun equals => by cases digits.symm.trans equals
  | signed sign =>
    intro equals
    rcases sign with is | is <;> cases is.symm.trans equals
  | single _ ih => exact ih other

/-- Arithmetic holds no names. -/
theorem Run.wordless {strict : Bool} {task : Task} {next : Kind} {e : Node}
    (run : Run strict task next us e) (arithmetic : e.function? = none) :
    Wordless us ∧ ∀ level l, task = .chain level l → l.function? = none := by
  induction run with
  | function | bare | called | plain | braces | closed | given | ended | operand | single =>
    cases arithmetic
  | value _ _ _ ihf ihr =>
    obtain ⟨behind, before⟩ := ihr arithmetic
    exact ⟨(ihf (before _ _ rfl)).1.append behind, by rintro _ _ ⟨⟩⟩
  | stop =>
    refine ⟨wordless_nil, ?_⟩
    rintro level l ⟨⟩
    exact arithmetic
  | @operate level next op us vs l r e sign right rest ihr ihc =>
    obtain ⟨behind, before⟩ := ihc arithmetic
    have both : l.function? = none ∧ r.function? = none := by
      simpa [operator, Node.function?] using before _ _ rfl
    have mark : Wordless [op] := wordless_singleton rfl (sign.ne (by decide))
    refine ⟨mark.append ((ihr both.2).1.append behind), ?_⟩
    rintro level l ⟨⟩
    exact both.1
  | number digits => exact ⟨wordless_singleton digits (by decide), by rintro _ _ ⟨⟩⟩
  | signed sign digits =>
    rcases sign with is | is <;>
      exact ⟨(wordless_singleton is (by decide)).append (wordless_singleton digits (by decide)),
        by rintro _ _ ⟨⟩⟩
  | group opens _ closes ih =>
    exact ⟨(wordless_singleton opens (by decide)).append
      ((ih arithmetic).1.append (wordless_singleton closes (by decide))), by rintro _ _ ⟨⟩⟩

section Noting

variable {s : Setting} {next : Kind} {f g h : Function} {l r e : Node}

theorem remarks_front {k : Kind} (split : ts.drop i = t :: rest) (is : t.kind = k)
    (other : k ≠ .identifier) : remarks ts i [t] = [] :=
  (wordless_singleton is other).no_remarks split

theorem remarks_name (split : ts.drop i = t :: rest) (other : (s.peek rest).kind ≠ .assign) :
    remarks ts i [t] = [] := by
  apply remarks_nothing
  intro j low high
  rw [List.length_singleton] at high
  obtain rfl : j = i := by omega
  have behind : kindAt ts (j + 1) ≠ some .assign := by
    have next := drop_next split
    cases rest with
    | nil => simp [kindAt, List.getElem?_eq_none (List.drop_eq_nil_iff.mp next)]
    | cons u rest =>
      rw [kindAt, at_front next]
      exact fun equals => other (Option.some.inj equals)
  simp [givesAt, behind]

theorem noted_function {name : Token} (is : name.kind = .identifier)
    (arguments : Run s.strict (.arguments (named name)) (ahead vs next) us (.function f))
    (block : Run s.strict (.block f) next vs (.function g))
    (first : Noted ts s (.arguments (named name)) (ahead vs next) us)
    (second : Noted ts s (.block f) next vs) :
    Noted ts s .function next (name :: (us ++ vs)) := by
  intro n i rest fuel kind other split _
  simp only [List.length_cons, List.length_append, Task.cost] at fuel
  obtain ⟨n, rfl⟩ := Nat.exists_eq_add_of_le' (show 1 ≤ n by omega)
  have whole : name :: (us ++ vs) ++ rest = name :: (us ++ (vs ++ rest)) := by simp
  rw [whole] at split ⊢
  have behind : (s.peek (vs ++ rest)).kind = ahead vs next := by rw [peek_append, kind]
  have inside := drop_next split
  have later := drop_behind inside
  have called := asNode_succeeds.mp
    (arguments.replays n (vs ++ rest) (by simp only [Task.cost]; omega) behind)
  have start : (Task.arguments (named name)).Ready ts (i + 1) := by
    have here := at_front split
    exact ⟨rfl, i, rfl, by simp [kindAt, here, is], by simp [valueAt, here, named, Function.name]⟩
  have head := first n (i + 1) (vs ++ rest) (by simp only [Task.cost]; omega) behind
    (block.front other) inside start
  have tail := second n (i + 1 + us.length) rest (by simp only [Task.cost]; omega) kind other later
    trivial
  have own : remarks ts i [name] = [] := by
    apply remarks_name (s := s) split
    rw [peek_append, behind]
    exact arguments.front (block.front other)
  have steps : (Task.function.outcome s (n + 1) (name :: (us ++ (vs ++ rest)))).warnings =
      ((Task.arguments (named name)).outcome s n (us ++ (vs ++ rest))).warnings ++
        ((Task.block f).outcome s n (vs ++ rest)).warnings := by
    simp only [Task.outcome, asNode_warnings, Parser.function, peek_cons, List.tail_cons, is]
    exact andThen_warnings called.result
  rw [steps, head, tail, remarks_cons, own, remarks_append]
  rfl

theorem noted_none {task : Task} {k : Kind}
    {list : Nat → Function → List Token → Outcome Function} (alone : next ≠ k)
    (steps : ∀ n us, task.outcome s n us =
      asNode (if (s.peek us).kind == k then list n f us.tail else done f us)) :
    Noted ts s task next [] := by
  intro n i rest _ kind _ _ _
  rw [steps, asNode_warnings, List.nil_append, kind, if_neg (by simpa using alone)]
  rfl

theorem noted_called {l : Token} (opens : l.kind = .lparen)
    (list : Noted ts s (.parameters f) next us) : Noted ts s (.arguments f) next (l :: us) := by
  intro n i rest fuel kind other split ready
  obtain ⟨fresh, j, rfl, word, called⟩ := ready
  rw [List.length_cons] at fuel
  have start : Collected ts (j + 2) f := by
    apply collected_start fresh word called
    simp [kindAt, at_front split, opens]
  have inner := list n (j + 2) rest (by simp only [Task.cost] at fuel ⊢; omega) kind other
    (drop_next split) start
  rw [remarks_cons, remarks_front split opens (by decide), List.nil_append, ← inner]
  simp only [Task.outcome, List.cons_append, peek_cons, List.tail_cons, opens, BEq.rfl, if_true]

theorem noted_braces {l : Token} (opens : l.kind = .lbrace)
    (list : Noted ts s (.operands f) next us) : Noted ts s (.block f) next (l :: us) := by
  intro n i rest fuel kind other split _
  rw [List.length_cons] at fuel
  have inner := list n (i + 1) rest (by simp only [Task.cost] at fuel ⊢; omega) kind other
    (drop_next split) trivial
  rw [remarks_cons, remarks_front split opens (by decide), List.nil_append, ← inner]
  simp only [Task.outcome, List.cons_append, peek_cons, List.tail_cons, opens, BEq.rfl, if_true]

theorem assign_warnings {name : Token} (lenient : s.strict = false) (collected : Collected ts i f)
    (here : ts[i]? = some name) (gives : givesAt ts i = true) :
    (assign s f name e us).warnings = remarks ts i [name] := by
  obtain ⟨k, owner, called⟩ := collected.owner
  have value : valueAt ts i = name.value := by simp [valueAt, here]
  have repeats := collected.repeats gives
  have remark : remarkAt ts i =
      ⟨(Trouble.duplicateParameter name.value f.name).message, name.span⟩ := by
    simp [remarkAt, value, owner, called, here]
  rw [value] at repeats
  simp only [assign, lenient, remarks, List.length_singleton, List.range'_one, List.filter_cons,
    List.filter_nil, repeats]
  split
  · simp [warn, done, remark]
  · rfl

theorem Separates.stops {k : Kind} {sep : List Token} (separates : Separates k sep) :
    ahead sep k ≠ .assign ∧ Wordless sep := by
  cases separates with
  | none ends =>
    refine ⟨?_, wordless_nil⟩
    rw [ends]
    decide
  | comma is =>
    refine ⟨?_, wordless_singleton is (by decide)⟩
    intro equals
    cases is.symm.trans equals

theorem parameters_warnings {name eq : Token} {sep : List Token} (lenient : s.strict = false)
    (is : name.kind = .identifier) (equals : eq.kind = .assign)
    (read : Succeeds s (expression s n us) e (sep ++ rest)) (arithmetic : e.function? = none)
    (separates : Separates (s.peek rest).kind sep) :
    (parameters s (n + 1) f (name :: eq :: us)).warnings =
      (expression s n us).warnings ++ ((assign s f name e (sep ++ rest)).warnings ++
        (parameters s n ((f.assign name.value e).cover e.span) rest).warnings) := by
  have given : Succeeds s (assign s f name e (sep ++ rest)) _ (sep ++ rest) :=
    assign_succeeds e _ fun strict => absurd strict (by simp [lenient])
  rw [parameters]
  simp only [peek_cons, List.tail_cons, is, equals]
  refine (andThen_warnings read.result).trans (congrArg _ ?_)
  rw [arithmetic]
  refine (andThen_warnings given.result).trans (congrArg _ ?_)
  cases separates with
  | none ends =>
    rw [List.nil_append, ends]
    rfl
  | comma is =>
    simp only [List.cons_append, peek_cons, is, List.tail_cons]
    rfl

theorem Collected.behind {name eq : Token} {sep : List Token} (collected : Collected ts i f)
    (split : ts.drop i = name :: eq :: (us ++ (sep ++ rest))) (is : name.kind = .identifier)
    (equals : eq.kind = .assign) (quiet : Wordless us) (calm : Wordless sep) :
    Collected ts (i + 2 + us.length + sep.length) ((f.assign name.value e).cover e.span) := by
  have here := at_front split
  have second := drop_next split
  have gives : givesAt ts i = true := by
    simp [givesAt, kindAt, here, at_front second, is, equals]
  have own : valueAt ts i = name.value := by simp [valueAt, here]
  have passed : ts.drop (i + 1) = (eq :: (us ++ sep)) ++ rest := by simpa using second
  have still : Wordless (eq :: (us ++ sep)) :=
    (wordless_singleton equals (by decide)).append (quiet.append calm)
  rw [← own]
  apply collected.next gives (by omega)
  intro k low high
  apply still.kind_ne passed low
  rw [List.length_cons, List.length_append]
  omega

theorem noted_given {name eq : Token} {sep : List Token} (lenient : s.strict = false)
    (is : name.kind = .identifier) (equals : eq.kind = .assign)
    (value : Run s.strict (.value .sum) (ahead (sep ++ vs) next) us e)
    (arithmetic : e.function? = none) (separates : Separates (ahead vs next) sep)
    (first : Noted ts s (.value .sum) (ahead (sep ++ vs) next) us)
    (list : Noted ts s (.parameters ((f.assign name.value e).cover e.span)) next vs) :
    Noted ts s (.parameters f) next (name :: eq :: (us ++ (sep ++ vs))) := by
  intro n i rest fuel kind other split collected
  simp only [List.length_cons, List.length_append, Task.cost] at fuel
  obtain ⟨n, rfl⟩ := Nat.exists_eq_add_of_le' (show 1 ≤ n by omega)
  have whole : name :: eq :: (us ++ (sep ++ vs)) ++ rest =
      name :: eq :: (us ++ (sep ++ (vs ++ rest))) := by simp
  rw [whole] at split ⊢
  obtain ⟨stops, calm⟩ := separates.stops
  have quiet := (value.wordless arithmetic).1
  have front : (s.peek (vs ++ rest)).kind = ahead vs next := by rw [peek_append, kind]
  have behind : (s.peek (sep ++ (vs ++ rest))).kind = ahead (sep ++ vs) next := by
    rw [← List.append_assoc, peek_append, kind]
  have stop : ahead (sep ++ vs) next ≠ .assign := by
    rw [← behind, peek_append, front]
    exact stops
  have second := drop_next split
  have inside := drop_next second
  have between := drop_behind inside
  have read := value.replays n (sep ++ (vs ++ rest)) (by simp only [Task.cost]; omega) behind
  have silent : (expression s n (us ++ (sep ++ (vs ++ rest)))).warnings = remarks ts (i + 2) us :=
    first n (i + 2) _ (by simp only [Task.cost]; omega) behind stop inside trivial
  have goes := list n _ rest (by simp only [Task.cost]; omega) kind other (drop_behind between)
    (collected.behind split is equals quiet calm)
  have gives : givesAt ts i = true := by
    simp [givesAt, kindAt, at_front split, at_front second, is, equals]
  have shares : remarks ts i (name :: eq :: (us ++ (sep ++ vs))) =
      remarks ts i [name] ++ remarks ts (i + 2 + us.length + sep.length) vs := by
    rw [remarks_cons, remarks_cons ts (i + 1), remarks_append, remarks_append,
      remarks_front second equals (by decide), quiet.no_remarks inside, calm.no_remarks between]
    rfl
  rw [Task.outcome, asNode_warnings] at goes ⊢
  rw [parameters_warnings lenient is equals read arithmetic (front ▸ separates), silent, goes,
    shares, assign_warnings lenient collected (at_front split) gives, quiet.no_remarks inside]
  rfl

theorem noted_quiet {task : Task} (quiet : Wordless us)
    (silent : ∀ n rest, 8 * us.length + task.cost ≤ n + 8 → (s.peek rest).kind = next →
      (task.outcome s n (us ++ rest)).warnings = []) : Noted ts s task next us := by
  intro n i rest fuel kind _ split _
  rw [silent n rest fuel kind, quiet.no_remarks split]

theorem noted_operand (value : Run s.strict (.value .sum) (ahead vs next) us (.function g))
    (list : Run s.strict (.operands ((f.addOperand g).cover g.span)) next vs (.function h))
    (first : Noted ts s (.value .sum) (ahead vs next) us)
    (later : Noted ts s (.operands ((f.addOperand g).cover g.span)) next vs) :
    Noted ts s (.operands f) next (us ++ vs) := by
  intro n i rest fuel kind other split _
  have stop := list.front other
  obtain ⟨t, us, rfl, inner⟩ := value.starts
  obtain ⟨v, vs, rfl⟩ := list.starts
  have proper : t.kind ≠ .eof := value.clean t (List.mem_cons_self ..)
  have more : v.kind ≠ .eof := list.clean v (List.mem_cons_self ..)
  rw [List.append_assoc] at split ⊢
  simp only [List.length_cons, List.length_append, Task.cost] at fuel
  obtain ⟨n, rfl⟩ := Nat.exists_eq_add_of_le' (show 1 ≤ n by omega)
  have read := value.replays n (v :: vs ++ rest)
    (by simp only [List.length_cons, Task.cost]; omega) rfl
  have head := first n i (v :: vs ++ rest) (by simp only [List.length_cons, Task.cost]; omega) rfl
    stop split trivial
  have tail := later n _ rest (by simp only [List.length_cons, Task.cost]; omega) kind other
    (drop_behind split) trivial
  rw [Task.outcome, asNode_warnings] at tail ⊢
  rw [remarks_append, ← head, ← tail, List.cons_append, Parser.operands, peek_cons,
    if_neg (by simpa using inner), if_neg (by simpa using proper)]
  refine (andThen_warnings read.result).trans (congrArg _ ?_)
  dsimp only
  rw [List.cons_append, peek_cons, if_neg (by simpa using more)]

theorem noted_value {level : Level} (loose : level ≠ .atom)
    (value : Run s.strict (.value (tighter level)) (ahead vs next) us l)
    (chain : Run s.strict (.chain level l) next vs e)
    (first : Noted ts s (.value (tighter level)) (ahead vs next) us)
    (later : Noted ts s (.chain level l) next vs) : Noted ts s (.value level) next (us ++ vs) := by
  intro n i rest fuel kind other split _
  obtain ⟨cost, least⟩ := cost_value loose
  have filled : 1 ≤ us.length := by
    obtain ⟨t, us, rfl, -⟩ := value.starts
    simp
  have nine : (Task.chain level l).cost = 9 := rfl
  have behind : (s.peek (vs ++ rest)).kind = ahead vs next := by rw [peek_append, kind]
  rw [List.length_append] at fuel
  rw [List.append_assoc] at split ⊢
  obtain ⟨n, rfl⟩ := Nat.exists_eq_add_of_le' (show 1 ≤ n by omega)
  have read := value.replays n (vs ++ rest) (by omega) behind
  have head := first n i (vs ++ rest) (by omega) behind (chain.front other) split trivial
  have tail := later n _ rest (by omega) kind other (drop_behind split) trivial
  rw [remarks_append, ← head, ← tail, outcome_value loose]
  exact andThen_warnings read.result

theorem noted_operate {level : Level} {op : Token} (sign : Binds level op.kind)
    (value : Run s.strict (.value (tighter level)) (ahead vs next) us r)
    (chain : Run s.strict (.chain level (operator op l r)) next vs e)
    (first : Noted ts s (.value (tighter level)) (ahead vs next) us)
    (later : Noted ts s (.chain level (operator op l r)) next vs) :
    Noted ts s (.chain level l) next (op :: (us ++ vs)) := by
  intro n i rest fuel kind other split _
  have cost : (Task.value (tighter level)).cost ≤ 3 := by cases level <;> decide
  have behind : (s.peek (vs ++ rest)).kind = ahead vs next := by rw [peek_append, kind]
  simp only [List.length_cons, List.length_append, Task.cost] at fuel
  rw [List.cons_append, List.append_assoc] at split ⊢
  obtain ⟨n, rfl⟩ := Nat.exists_eq_add_of_le' (show 1 ≤ n by omega)
  have inside := drop_next split
  have read := value.replays n (vs ++ rest) (by omega) behind
  have head := first n _ (vs ++ rest) (by omega) behind (chain.front other) inside trivial
  have tail := later n _ rest (by simp only [Task.cost]; omega) kind other (drop_behind inside)
    trivial
  rw [remarks_cons, remarks_front split rfl (sign.ne (by decide)), remarks_append, ← head, ← tail,
    outcome_chain sign]
  exact andThen_warnings read.result

theorem noted_group {l r : Token} (opens : l.kind = .lparen)
    (value : Run s.strict (.value .sum) .rparen us e) (closes : r.kind = .rparen)
    (inner : Noted ts s (.value .sum) .rparen us) :
    Noted ts s (.value .atom) next (l :: (us ++ [r])) := by
  intro n i rest fuel _ _ split _
  simp only [List.length_cons, List.length_append, Task.cost] at fuel
  have whole : l :: (us ++ [r]) ++ rest = l :: (us ++ r :: rest) := by simp
  rw [whole] at split ⊢
  obtain ⟨n, rfl⟩ := Nat.exists_eq_add_of_le' (show 1 ≤ n by omega)
  have inside := drop_next split
  have read := value.replays n (r :: rest) (by simp only [Task.cost]; omega) closes
  have said := inner n _ (r :: rest) (by simp only [Task.cost]; omega) closes (by decide) inside
    trivial
  rw [Task.outcome, factor, peek_cons, opens, remarks_cons, remarks_front split opens (by decide),
    remarks_append, remarks_front (drop_behind inside) closes (by decide), ← said]
  refine (andThen_warnings read.result).trans (congrArg _ ?_)
  rw [peek_cons, if_pos (beq_iff_eq.mpr closes)]
  rfl

theorem noted_single (starts : ∃ t vs, us = t :: vs ∧ t.kind = .identifier)
    (function : Noted ts s .function next us) : Noted ts s (.value .atom) next us := by
  intro n i rest fuel kind other split _
  obtain ⟨t, us, rfl, is⟩ := starts
  simp only [List.length_cons, Task.cost] at fuel
  obtain ⟨n, rfl⟩ := Nat.exists_eq_add_of_le' (show 1 ≤ n by omega)
  have said := function n i rest (by simp only [List.length_cons, Task.cost]; omega) kind other
    split trivial
  rw [← said, List.cons_append]
  simp only [Task.outcome, factor, peek_cons, is]
  rfl

end Noting

/-- Every step warns of what is repeated among the tokens it takes. -/
theorem Run.noted {s : Setting} {task : Task} {next : Kind} {e : Node} (lenient : s.strict = false)
    (run : Run s.strict task next us e) : Noted ts s task next us := by
  induction run with
  | function is arguments block iha ihb => exact noted_function is arguments block iha ihb
  | bare alone => exact noted_none alone fun _ _ => rfl
  | plain alone => exact noted_none alone fun _ _ => rfl
  | called opens _ ih => exact noted_called opens ih
  | braces opens _ ih => exact noted_braces opens ih
  | closed closes =>
    refine noted_quiet (wordless_singleton closes (by decide)) fun n rest fuel _ => ?_
    simp only [List.length_singleton, Task.cost] at fuel
    obtain ⟨n, rfl⟩ := Nat.exists_eq_add_of_le' (show 1 ≤ n by omega)
    rw [Task.outcome, asNode_warnings, List.singleton_append, Parser.parameters, peek_cons, closes]
    rfl
  | given is equals value arithmetic _ separates _ ihv ihr =>
    exact noted_given lenient is equals value arithmetic separates ihv ihr
  | ended closes =>
    refine noted_quiet (wordless_singleton closes (by decide)) fun n rest fuel _ => ?_
    simp only [List.length_singleton, Task.cost] at fuel
    obtain ⟨n, rfl⟩ := Nat.exists_eq_add_of_le' (show 1 ≤ n by omega)
    rw [Task.outcome, asNode_warnings, List.singleton_append, Parser.operands, peek_cons, closes]
    rfl
  | operand first rest ihf ihr => exact noted_operand first rest ihf ihr
  | value loose first rest ihf ihr => exact noted_value loose first rest ihf ihr
  | @stop level next e other =>
    refine noted_quiet wordless_nil fun n rest fuel behind => ?_
    rw [List.length_nil, Task.cost] at fuel
    cases level with
    | sum =>
      rw [Task.outcome, List.nil_append, sumFrom_stop (by omega)
        (fun is => other (.inl (behind ▸ is))) (fun is => other (.inr (behind ▸ is)))]
      rfl
    | product =>
      rw [Task.outcome, List.nil_append, productFrom_stop (by omega)
        (fun is => other (.inl (behind ▸ is))) (fun is => other (.inr (behind ▸ is)))]
      rfl
    | atom => rfl
  | operate sign right rest ihr ihc => exact noted_operate sign right rest ihr ihc
  | number digits =>
    refine noted_quiet (wordless_singleton digits (by decide)) fun n rest fuel _ => ?_
    simp only [List.length_singleton, Task.cost] at fuel
    obtain ⟨n, rfl⟩ := Nat.exists_eq_add_of_le' (show 1 ≤ n by omega)
    rw [Task.outcome, List.singleton_append, factor_number (.inl digits), number_plain digits]
    rfl
  | @signed next t d sign digits =>
    have quiet : Wordless [t, d] := by
      rcases sign with is | is <;>
        exact (wordless_singleton is (by decide)).append (wordless_singleton digits (by decide))
    refine noted_quiet quiet fun n rest fuel _ => ?_
    simp only [List.length_cons, Task.cost] at fuel
    obtain ⟨n, rfl⟩ := Nat.exists_eq_add_of_le' (show 1 ≤ n by omega)
    rw [Task.outcome, List.cons_append, List.singleton_append, factor_number (.inr sign),
      number_signed sign digits]
    rfl
  | group opens inner closes ih => exact noted_group opens inner closes ih
  | single function ih =>
    cases function with
    | function is => exact noted_single ⟨_, _, rfl, is⟩ ih

/-- The warnings of an accepted document are those of all its tokens. -/
theorem documentFrom_noted {s : Setting} (ends : s.finish.kind = .eof) (lenient : s.strict = false)
    {d e : Document} (split : ts.drop i = us) (fuel : 8 * us.length ≤ n)
    (accepted : (documentFrom s n d us).result = .ok (e, rest)) :
    ∃ used, us = used ++ rest ∧ Clean used ∧ (s.peek rest).kind = .eof ∧
      (s.peek us).kind = .identifier ∧ (documentFrom s n d us).warnings = remarks ts i used := by
  induction n generalizing i us d with
  | zero => exact (fail_ok accepted).elim
  | succ n ih =>
    rw [documentFrom] at accepted ⊢
    obtain ⟨f, mid, read, goes⟩ := andThen_ok accepted
    obtain ⟨first, rfl, run⟩ := traced_all ends n .function (asNode_result read)
    have word : (s.peek (first ++ mid)).kind = .identifier ∧ 1 ≤ first.length := by
      cases run with
      | function is => exact ⟨is, by simp⟩
    have said (other : (s.peek mid).kind ≠ .assign) :
        (Parser.function s n (first ++ mid)).warnings = remarks ts i first := by
      rw [← asNode_warnings]
      rw [List.length_append] at fuel
      exact run.noted lenient n i mid (by simp only [Task.cost]; omega) rfl other split trivial
    rw [andThen_warnings read]
    dsimp only at goes ⊢
    split at goes
    · rename_i is
      obtain ⟨rfl, rfl⟩ := done_ok goes
      refine ⟨first, rfl, run.clean, eq_of_beq is, word.1, ?_⟩
      rw [said (by rw [eq_of_beq is]; decide), if_pos is]
      exact List.append_nil _
    · rename_i other
      rw [List.length_append] at fuel
      obtain ⟨used, rfl, clean, stops, next, noted⟩ := ih (drop_behind split) (by omega) goes
      refine ⟨first ++ used, (List.append_assoc ..).symm, run.clean.append clean, stops, word.1, ?_⟩
      rw [said (by rw [next]; decide), if_neg other, noted, remarks_append]

theorem takeWhile_text {s : Setting} (whole : ts = us ++ rest) (clean : Clean us)
    (stops : (s.peek rest).kind = .eof) : ts.takeWhile (·.kind != .eof) = us := by
  rw [whole, List.takeWhile_append_of_pos fun t found => bne_iff_ne.mpr (clean t found)]
  cases rest with
  | nil => exact List.append_nil _
  | cons t rest =>
    rw [peek_cons] at stops
    rw [List.takeWhile_cons_of_neg (by simpa using stops), List.append_nil]

end Parser

/-- The positions of the repeated parameters of a text, which reaches up to the first end of
input. -/
def repetitions (ts : List Token) : List Nat :=
  (List.range (ts.takeWhile (·.kind != .eof)).length).filter (repeatsAt ts)

/-- An accepted text is warned of once for each repeated parameter, in the order of the text. -/
theorem parseTokens_warnings {d : Document} (accepted : (parseTokens false ts).result = .ok d) :
    (parseTokens false ts).warnings = (repetitions ts).map (remarkAt ts) := by
  obtain ⟨rest, parsed⟩ := parseTokens_ok accepted
  obtain ⟨used, whole, clean, stops, -, noted⟩ :=
    Parser.documentFrom_noted rfl rfl (List.drop_zero ..) (by omega) parsed
  unfold parseTokens
  dsimp only
  rw [noted, repetitions, Parser.takeWhile_text whole clean stops, List.range_eq_range']
  rfl

end DistanceField
