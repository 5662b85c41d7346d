import DistanceField.Proofs.Source.Pairs
import DistanceField.Proofs.Source.Repeats
import DistanceField.Proofs.Source.Soundness

/-! The names that stand before parentheses are those of the functions in the tree, so each pair of an
accepted text is the parameter list of a function or groups a part of the text. -/
namespace DistanceField

namespace Parser

open Grammar

/-- Every name directly before a parenthesis that opens is where one of the functions is read from. -/
def Headed (strict : Bool) (next : Kind) (us : List Token) (fs : List Function) : Prop :=
  ∀ before name rest, us = before ++ name :: rest → name.kind = .identifier →
    ahead rest next = .lparen → ∃ f ∈ fs, ∃ used after k, name :: rest = used ++ after ∧
      Run strict .function k used (.function f)

def Task.handed : Task → List Function
  | .function | .value _ => []
  | .arguments f | .block f | .parameters f | .operands f => functionsOf f.operands
  | .chain _ l => l.functions

/-- The functions in the tree of a step, but for that which it goes on from. -/
def Task.gathered : Task → Node → List Function
  | .arguments _, .function f | .block _, .function f | .parameters _, .function f
  | .operands _, .function f => functionsOf f.operands
  | _, e => e.functions

section Heads

variable {strict : Bool} {next : Kind} {us vs : List Token} {t : Token} {fs gs : List Function}

theorem headed_nil : Headed strict next [] fs := by
  intro before name rest whole
  simp at whole

theorem Headed.mono (headed : Headed strict next us fs) (sub : ∀ f ∈ fs, f ∈ gs) :
    Headed strict next us gs := by
  intro before name rest whole named opens
  obtain ⟨f, found, read⟩ := headed before name rest whole named opens
  exact ⟨f, sub f found, read⟩

theorem Headed.append (first : Headed strict (ahead vs next) us fs) (second : Headed strict next vs fs) :
    Headed strict next (us ++ vs) fs := by
  intro before name rest whole named opens
  rcases split_append whole with ⟨more, rfl, rfl⟩ | ⟨more, rfl, behind⟩
  · rw [ahead_append] at opens
    obtain ⟨f, found, used, after, k, split, run⟩ := first before name more rfl named opens
    refine ⟨f, found, used, after ++ vs, k, ?_, run⟩
    rw [← List.cons_append, split, List.append_assoc]
  · exact second more name rest behind named opens

theorem Headed.cons (rest : Headed strict next us fs)
    (other : t.kind ≠ .identifier ∨ ahead us next ≠ .lparen) : Headed strict next (t :: us) fs := by
  intro before name more whole named opens
  cases before with
  | nil =>
    obtain ⟨rfl, rfl⟩ := List.cons.inj whole
    rcases other with nameless | closed
    · exact absurd named nameless
    · exact absurd opens closed
  | cons u before =>
    obtain ⟨rfl, behind⟩ := List.cons.inj whole
    exact rest before name more behind named opens

theorem headed_wordless (wordless : Wordless us) : Headed strict next us fs := by
  intro before name rest whole named
  exact absurd named (wordless name (by simp [whole]))

/-- No name in a list stands directly before a parenthesis. -/
theorem headed_assigns {as : List (Bytes × Node)} (list : Assigns us as) :
    Headed strict next us [] := by
  have one {us : List Token} {a : Bytes × Node} {next : Kind} (assign : Assign us a) :
      Headed strict next us [] := by
    cases assign with
    | mk named given value =>
      have wordless : Wordless _ := fun t found is =>
        value.undivided found (by simp [Divides, is])
      refine ((headed_wordless wordless).cons (.inl (by rw [given]; decide))).cons (.inr ?_)
      rw [ahead_cons, given]
      decide
  induction list with
  | none => exact headed_nil
  | last assign => exact one assign
  | more assign comma _ ih => exact (one assign).append (ih.cons (.inl (by rw [comma]; decide)))

theorem mem_functionsOf_concat {f g : Function} :
    f ∈ functionsOf (fs ++ [g]) ↔ f ∈ functionsOf fs ∨ f ∈ g.functions := by
  simp only [mem_functionsOf, List.mem_append, List.mem_singleton, or_and_right, exists_or,
    exists_eq_left]

/-- A function is read from its own name, and its operands behind it. -/
theorem Headed.function {name : Token} {f : Function} (rest : Headed strict next us (functionsOf f.operands))
    (run : Run strict .function next (name :: us) (.function f)) :
    Headed strict next (name :: us) f.functions := by
  intro before name' more whole named opens
  rw [functions_eq]
  cases before with
  | nil =>
    refine ⟨f, List.mem_cons_self .., _, [], next, ?_, run⟩
    rw [List.append_nil]
    exact whole.symm
  | cons u before =>
    obtain ⟨g, found, read⟩ := rest before name' more (List.cons.inj whole).2 named opens
    exact ⟨g, List.mem_cons_of_mem _ (List.mem_append_right _ found), read⟩

theorem Run.heads {task : Task} {e : Node} (run : Run strict task next us e) :
    (∀ f ∈ task.handed, f ∈ task.gathered e) ∧ Headed strict next us (task.gathered e) := by
  induction run with
  | @function next us vs name f g is arguments block iha ihb =>
    refine ⟨by rintro h ⟨⟩, ?_⟩
    exact ((iha.2.mono ihb.1).append ihb.2).function (.function is arguments block)
  | bare | plain | stop => exact ⟨fun f found => found, headed_nil⟩
  | called opens _ ih | braces opens _ ih =>
    exact ⟨ih.1, ih.2.cons (.inl (by rw [opens]; decide))⟩
  | closed closes | ended closes =>
    exact ⟨fun f found => found, headed_nil.cons (.inl (by rw [closes]; decide))⟩
  | @given next name eq us sep vs f g e is equals value arithmetic fresh separates rest ihv ihr =>
    have separator : Headed strict next (sep ++ vs) (functionsOf g.operands) := by
      cases separates with
      | none => exact ihr.2
      | comma is => exact ihr.2.cons (.inl (by rw [is]; decide))
    have wordless : Headed strict (ahead (sep ++ vs) next) us (functionsOf g.operands) :=
      headed_wordless (value.wordless arithmetic).1
    refine ⟨fun h found => ihr.1 h ?_, ?_⟩
    · change h ∈ functionsOf ((f.assign name.value e).cover e.span).operands
      rwa [show ((f.assign name.value e).cover e.span).operands = f.operands from assign_operands ..]
    · refine Headed.cons ?_ (.inr ?_)
      · exact (wordless.append separator).cons (.inl (by rw [equals]; decide))
      · rw [ahead_cons, equals]
        decide
  | @operand next us vs f g h first rest ihf ihr =>
    have added : ∀ k, k ∈ functionsOf f.operands ∨ k ∈ g.functions →
        k ∈ functionsOf h.operands :=
      fun k found => ihr.1 k (mem_functionsOf_concat.mpr found)
    refine ⟨fun k found => added k (.inl found), ?_⟩
    exact (ihf.2.mono fun k found => added k (.inr found)).append ihr.2
  | value _ _ _ ihf ihr => exact ⟨by rintro h ⟨⟩, (ihf.2.mono ihr.1).append ihr.2⟩
  | @operate level next op us vs l r e sign right rest ihr ihc =>
    have both : ∀ k, k ∈ l.functions ∨ k ∈ r.functions → k ∈ Task.gathered (.chain level l) e :=
      fun k found => ihc.1 k (List.mem_append.mpr found)
    refine ⟨fun k found => both k (.inl found), ?_⟩
    have operands := (ihr.2.mono fun k found => both k (.inr found)).append ihc.2
    exact operands.cons (.inl (sign.ne (by decide)))
  | number digits => exact ⟨by rintro h ⟨⟩, headed_nil.cons (.inl (by rw [digits]; decide))⟩
  | signed sign digits =>
    refine ⟨by rintro h ⟨⟩, Headed.cons (headed_nil.cons (.inl (by rw [digits]; decide))) (.inl ?_)⟩
    rcases sign with is | is <;> rw [is] <;> decide
  | @group next l r us e opens inner closes ih =>
    refine ⟨by rintro h ⟨⟩, Headed.cons (Headed.append ?_ ?_) (.inl (by rw [opens]; decide))⟩
    · rw [ahead_cons, closes]
      exact ih.2
    · exact headed_nil.cons (.inl (by rw [closes]; decide))
  | single _ ih => exact ⟨by rintro h ⟨⟩, ih.2⟩

theorem documentFrom_heads {s : Setting} (ends : s.finish.kind = .eof) {n : Nat}
    {ts rest : List Token} {d d' : Document}
    (accepted : (documentFrom s n d ts).result = .ok (d', rest)) :
    (∀ f ∈ d.functions, f ∈ d'.functions) ∧ (s.peek rest).kind = .eof ∧
      ∃ us, ts = us ++ rest ∧ Clean us ∧ Headed s.strict .eof us d'.functions := by
  induction n generalizing ts d with
  | zero => exact (Outcome.fail_ok accepted).elim
  | succ n ih =>
    rw [documentFrom] at accepted
    obtain ⟨f, mid, first, goes⟩ := Outcome.andThen_ok accepted
    obtain ⟨us, rfl, run⟩ := traced_all ends n .function (asNode_result first)
    have old : ∀ g ∈ d.functions, g ∈ (d.add f).functions :=
      fun g found => mem_functionsOf_concat.mpr (.inl found)
    have new : ∀ g ∈ f.functions, g ∈ (d.add f).functions :=
      fun g found => mem_functionsOf_concat.mpr (.inr found)
    dsimp only at goes
    split at goes
    · next last =>
      obtain ⟨rfl, rfl⟩ := Outcome.done_ok goes
      have last : (s.peek mid).kind = .eof := by simpa using last
      rw [last] at run
      exact ⟨old, last, us, rfl, run.clean, run.heads.2.mono new⟩
    · obtain ⟨kept, last, vs, rfl, clean, headed⟩ := ih goes
      refine ⟨fun g found => kept g (old g found), last, us ++ vs, by simp, run.clean.append clean, ?_⟩
      have next : (s.peek (vs ++ rest)).kind = ahead vs .eof := by
        cases vs with
        | nil => exact last
        | cons v vs => rfl
      rw [next] at run
      exact (run.heads.2.mono fun g found => kept g (new g found)).append headed

end Heads

end Parser

theorem parseTokens_headed {strict : Bool} {ts : List Token} {finish : Token} {d : Document}
    (clean : Grammar.Clean ts) (ends : finish.kind = .eof)
    (accepted : (parseTokens strict (ts ++ [finish])).result = .ok d) :
    Parser.Headed strict .eof ts d.functions := by
  obtain ⟨rest, parsed⟩ := parseTokens_ok accepted
  obtain ⟨-, last, us, whole, proper, headed⟩ := Parser.documentFrom_heads rfl parsed
  have same : us = ts := by
    refine clean_split clean ends proper ?_ whole
    intro t first
    obtain ⟨rest, rfl⟩ := List.head?_eq_some_iff.mp first
    exact last
  rwa [← same]

structure Pair (ts : List Token) where
  before : List Token
  left : Token
  inner : List Token
  right : Token
  after : List Token
  whole : ts = before ++ left :: (inner ++ right :: after)
  opens : left.kind = .lparen
  closes : right.kind = .rparen
  matched : Grammar.Matched inner

namespace Pair

open Grammar

variable {strict : Bool} {ts : List Token}

def ListOf (p : Pair ts) (f : Function) : Prop :=
  ∃ front name, p.before = front ++ [name] ∧ name.kind = .identifier ∧ name.value = f.name ∧
    name.span.min = f.span.min

def GroupsOperand (strict : Bool) (p : Pair ts) : Prop :=
  ∃ fs, Solid strict .child .rparen p.inner fs

def GroupsValue (p : Pair ts) : Prop := ∃ e, Formula .sum p.inner e

theorem use (p : Pair ts) (used : Used strict [] ts) : Use strict p.before p.inner := by
  obtain ⟨inner, r, after, split, closes, matched, use⟩ := used p.before p.left _ p.whole p.opens
  rw [p.matched.partner matched p.closes closes split]
  exact use

theorem ListOf.given {p : Pair ts} {f : Function} (list : p.ListOf f) (used : Used strict [] ts) :
    ∃ front name, p.before = front ++ [name] ∧ name.kind = .identifier ∧ name.value = f.name ∧
      Fits front .identifier ∧ ∃ as, Assigns p.inner as := by
  obtain ⟨front, name, before, named, called, -⟩ := list
  have use := p.use used
  rw [before] at use
  exact ⟨front, name, before, named, called, use.of_name named⟩

/-- A pair in a parameter list groups a part of a value. -/
theorem groups_within {p q : Pair ts} {as : List (Bytes × Node)} {more rest : List Token}
    (used : Used strict [] ts) (list : Assigns p.inner as)
    (before : q.before = p.before ++ p.left :: more)
    (inner : p.inner = more ++ q.left :: (q.inner ++ q.right :: rest)) :
    Fits q.before .lparen ∧ q.GroupsValue := by
  have use := q.use used
  generalize front : q.before = us at use
  generalize within : q.inner = vs at use
  cases use with
  | @list us vs name bs named fits _ =>
    rcases List.eq_nil_or_concat more with rfl | ⟨more, t, rfl⟩
    · obtain ⟨-, same⟩ := List.append_inj' (before.symm.trans front) rfl
      have := p.opens
      rw [List.singleton_inj.mp same, named] at this
      cases this
    · rw [List.concat_eq_append, ← List.cons_append, ← List.append_assoc] at before
      obtain ⟨-, same⟩ := List.append_inj' (before.symm.trans front) rfl
      rw [List.singleton_inj.mp same, List.concat_eq_append, List.append_assoc] at inner
      have headed : Parser.Headed strict .rparen p.inner [] := Parser.headed_assigns list
      obtain ⟨f, found, -⟩ := headed more name _ inner named q.opens
      cases found
  | operand fits solid =>
    -- A name in it would stand inside of parentheses of the list.
    obtain ⟨t, found, named⟩ := solid.named (by simp)
    obtain ⟨xs, ys, split⟩ := List.append_of_mem found
    have place : p.inner = (more ++ q.left :: xs) ++ t :: (ys ++ q.right :: rest) := by
      rw [inner, within, split]
      simp
    have closed := (list.outside place (by simp [Divides, named])).closed_behind q.opens
    have front := Matched.depth_front (within.trans split ▸ q.matched)
    omega
  | value fits value => exact ⟨fits, _, within ▸ value⟩

end Pair

section Accepted

open Grammar

variable {strict : Bool} {source : Bytes} {ts : List Token} {d : Document}

theorem tokens_of_scan (scanned : scan source = .ok ts) :
    ∃ (us : List Token) (finish : Token), ts = us ++ [finish] ∧ Clean us ∧ finish.kind = .eof := by
  obtain ⟨us, whole, clean⟩ := (Lexer.lexes_of_scan scanned).last
  exact ⟨us, _, whole, clean, rfl⟩

/-- The parentheses of an accepted text have their partners, and their uses. -/
theorem accepted_pairs (scanned : scan source = .ok ts)
    (accepted : (parseTokens strict ts).result = .ok d) : Matched ts ∧ Used strict [] ts := by
  obtain ⟨us, finish, rfl, clean, ends⟩ := tokens_of_scan scanned
  have text := parseTokens_sound clean ends accepted
  constructor
  · exact text.matched.append (matched_single (by rw [ends]; decide))
  · exact (text.used fits_nil).append (used_single ends (by decide))

/-- In an accepted text the name directly before a pair is that of a function. -/
theorem accepted_lists (scanned : scan source = .ok ts)
    (accepted : (parseTokens strict ts).result = .ok d) (p : Pair ts) {front : List Token} {name : Token}
    (behind : p.before = front ++ [name]) (named : name.kind = .identifier) :
    ∃ f ∈ d.functions, p.ListOf f := by
  have laid : Parser.Laid 0 ts := (Lexer.lexes_of_scan scanned).laid
  obtain ⟨us, finish, whole, clean, ends⟩ := tokens_of_scan scanned
  have inside := parseTokens_headed clean ends (whole ▸ accepted)
  have headed : Parser.Headed strict .eof ts d.functions := by
    rw [whole]
    refine Parser.Headed.append ?_ (Parser.headed_nil.cons (.inl (by rw [ends]; decide)))
    rwa [ahead_cons, ends]
  have place : ts = front ++ name :: p.left :: (p.inner ++ p.right :: p.after) := by
    rw [List.append_cons, ← behind]
    exact p.whole
  obtain ⟨f, found, used, after, k, split, run⟩ := headed front name _ place named p.opens
  rw [place, split] at laid
  obtain ⟨before, rest⟩ := Parser.laid_append.mp laid
  obtain ⟨t, us, same, span⟩ := run.spans before.le_reach (Parser.laid_append.mp rest).1
  obtain ⟨t', us', g, same', -, tree, kept, -⟩ := run.closes
  cases tree
  rw [same', List.cons_append] at split
  obtain ⟨rfl, -⟩ := List.cons.inj split
  obtain ⟨rfl, -⟩ := List.cons.inj (same.symm.trans same')
  exact ⟨f, found, front, t, behind, named, kept.symm, (congrArg Interval.min span).symm⟩

theorem accepted_uses (scanned : scan source = .ok ts)
    (accepted : (parseTokens strict ts).result = .ok d) (p : Pair ts) :
    ((∃ f ∈ d.functions, p.ListOf f) ∧ ∃ as, Assigns p.inner as) ∨ p.GroupsOperand strict ∨
      p.GroupsValue := by
  have use := p.use (accepted_pairs scanned accepted).2
  generalize front : p.before = us at use
  generalize within : p.inner = vs at use
  cases use with
  | list named _ list =>
    exact .inl ⟨accepted_lists scanned accepted p front named, _, list⟩
  | operand _ solid => exact .inr (.inl ⟨_, within ▸ solid⟩)
  | value _ value => exact .inr (.inr ⟨_, within ▸ value⟩)

end Accepted

end DistanceField
