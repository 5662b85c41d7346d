import DistanceField.Proofs.Source.Trace

/-! What the parser accepts is derived from the grammar, with its tree. -/
namespace DistanceField.Parser

open Grammar Outcome

section Derivations

variable {strict : Bool} {level : Level} {next : Kind} {us vs : List Token} {l r e : Node}

/-- What an expression can be: arithmetic at its level, or a single function. -/
structure Reads (strict : Bool) (level : Level) (next : Kind) (used : List Token) (e : Node) :
    Prop where
  value : e.function? = none → Formula level used e.unplaced
  child : ∀ g, e = .function g → Solid strict .child next used [g.unplaced]

/-- Operators and operands behind an expression `l` make it `e`. -/
structure Extends (level : Level) (l : Node) (used : List Token) (e : Node) : Prop where
  arithmetic : e.function? = none → l.function? = none
  value : ∀ before, Formula level before l.unplaced → e.function? = none →
    Formula level (before ++ used) e.unplaced
  function : ∀ g, e = .function g → e = l ∧ used = []

theorem reads_number {v : Float} {i : Interval} (value : Formula .atom us (.number v .none)) :
    Reads strict .atom next us (.number v i) :=
  ⟨fun _ => value, fun _ same => by cases same⟩

theorem extends_refl (level : Level) (e : Node) : Extends level e [] e :=
  ⟨id, fun before value _ => by simpa using value, fun _ _ => ⟨rfl, rfl⟩⟩

theorem formula_operator {op : Token} (sign : Binds level op.kind) (left : Formula level us l)
    (right : Formula (tighter level) vs r) :
    Formula level (us ++ op :: vs) (.operator op.kind l r .none) := by
  cases level with
  | sum => exact .sum left sign right
  | product => exact .product left sign right
  | atom => exact sign.elim

theorem formula_loosen (loose : level ≠ .atom) (value : Formula (tighter level) us e) :
    Formula level us e := by
  cases level with
  | sum => exact .term value
  | product => exact .factor value
  | atom => exact absurd rfl loose

theorem extends_operator {op : Token} (sign : Binds level op.kind)
    (right : Reads strict (tighter level) next us r) (rest : Extends level (operator op l r) vs e) :
    Extends level l (op :: (us ++ vs)) e := by
  have both : e.function? = none → l.function? = none ∧ r.function? = none := by
    intro arithmetic
    have whole := rest.arithmetic arithmetic
    simpa [operator, Node.function?] using whole
  refine ⟨fun h => (both h).1, ?_, ?_⟩
  · intro before value arithmetic
    have joined := formula_operator sign value (right.value (both arithmetic).2)
    simpa using rest.value _ joined arithmetic
  · intro g single
    obtain ⟨same, -⟩ := rest.function g single
    rw [single] at same
    cases same

theorem Reads.extend (loose : level ≠ .atom)
    (first : Reads strict (tighter level) (ahead vs next) us l) (rest : Extends level l vs e) :
    Reads strict level next (us ++ vs) e := by
  refine ⟨?_, ?_⟩
  · intro arithmetic
    have value := formula_loosen loose (first.value (rest.arithmetic arithmetic))
    exact rest.value us value arithmetic
  · intro g single
    obtain ⟨same, none⟩ := rest.function g single
    subst none
    rw [List.append_nil]
    exact first.child g (same ▸ single)

end Derivations

theorem unplaced_eq (f : Function) :
    f.unplaced = .mk f.name (unplacedParams f.params) (unplacedAll f.operands) .none := by
  cases f
  rfl

theorem unplaced_cover (f : Function) (i : Interval) : (f.cover i).unplaced = f.unplaced := by
  cases f
  rfl

/-- What the grammar derives from the tokens of a step; where a step goes on from a function, what is
derived of it before is given. -/
def Task.Derives (strict : Bool) (next : Kind) (us : List Token) (e : Node) : Task → Prop
  | .function => ∀ g, e = .function g → Solid strict .function next us [g.unplaced]
  | .arguments f => ∀ t g, t.kind = .identifier → f = named t → e = .function g →
    ∃ ps, Head strict next (t :: us) t.value ps ∧ g.unplaced = .mk t.value ps [] .none
  | .block f => ∀ ts name ps g, Head strict (ahead us next) ts name ps →
    f.unplaced = .mk name ps [] .none → e = .function g →
    Solid strict .function next (ts ++ us) [g.unplaced]
  | .parameters f => ∀ as g, unplacedParams f.params = collect as →
    (strict = true → (as.map Prod.fst).Nodup) → e = .function g →
    ∃ used r bs, us = used ++ [r] ∧ r.kind = .rparen ∧ Assigns used bs ∧
      (strict = true → ((as ++ bs).map Prod.fst).Nodup) ∧
      g.unplaced = .mk f.name (collect (as ++ bs)) (unplacedAll f.operands) .none
  | .operands f => ∀ g, e = .function g →
    ∃ used r fs, us = used ++ [r] ∧ r.kind = .rbrace ∧ Solid strict .children .rbrace used fs ∧
      g.unplaced = .mk f.name (unplacedParams f.params) (unplacedAll f.operands ++ fs) .none
  | .value level => Reads strict level next us e
  | .chain level l => Extends level l us e

section Steps

variable {strict : Bool} {next : Kind} {us vs : List Token} {f g : Function} {e : Node}

theorem derives_given {name eq : Token} {sep : List Token} {k : Kind} (is : name.kind = .identifier)
    (equals : eq.kind = .assign) (value : Reads strict .sum k us e) (arithmetic : e.function? = none)
    (fresh : strict = true → ¬ (f.param? name.value).isSome = true)
    (separates : Separates (ahead vs next) sep)
    (rest : (Task.parameters ((f.assign name.value e).cover e.span)).Derives strict next vs
      (.function g)) :
    (Task.parameters f).Derives strict next (name :: eq :: (us ++ (sep ++ vs))) (.function g) := by
  rintro as _ so distinct ⟨⟩
  obtain ⟨collected, known⟩ := @assign_collect f as name.value e so
  have assign : Assign (name :: eq :: us) (name.value, e.unplaced) :=
    .mk is equals (value.value arithmetic)
  have still : strict = true → ((as ++ [(name.value, e.unplaced)]).map Prod.fst).Nodup := by
    intro strict
    rw [List.map_append, List.map_singleton, List.nodup_append']
    refine ⟨distinct strict, List.nodup_singleton _, ?_⟩
    rw [List.disjoint_singleton]
    exact fun found => fresh strict (known.mpr found)
  obtain ⟨used, r, bs, rfl, closes, list, nodup, tree⟩ := rest _ g collected still rfl
  have same : ((f.assign name.value e).cover e.span).name = f.name := assign_name ..
  have kept : ((f.assign name.value e).cover e.span).operands = f.operands := assign_operands ..
  rw [same, kept, List.append_assoc, List.singleton_append] at tree
  rw [List.append_assoc, List.singleton_append] at nodup
  cases separates with
  | none ends =>
    rcases list.starts with ⟨rfl, rfl⟩ | ⟨t, u, ts, rfl, named, -⟩
    · exact ⟨name :: eq :: us, r, [_], by simp, closes, .last assign, nodup, tree⟩
    · exact absurd (named.symm.trans ends) (by decide)
  | @comma sep comma =>
    exact ⟨name :: eq :: us ++ sep :: used, r, _ :: bs, by simp, closes, .more assign comma list,
      nodup, tree⟩

theorem derives_operand {h : Function} (first : Reads strict .sum (ahead vs next) us (.function g))
    (rest : (Task.operands ((f.addOperand g).cover g.span)).Derives strict next vs (.function h)) :
    (Task.operands f).Derives strict next (us ++ vs) (.function h) := by
  rintro _ ⟨⟩
  obtain ⟨used, r, fs, rfl, closes, solid, tree⟩ := rest h rfl
  have child := first.child g rfl
  have front : ahead (used ++ [r]) next = ahead used .rbrace := by
    cases used <;> simp [ahead, closes]
  rw [front] at child
  refine ⟨us ++ used, r, [g.unplaced] ++ fs, by simp, closes, .more child solid, ?_⟩
  rw [tree]
  show Function.mk f.name (unplacedParams f.params) (unplacedAll (f.addOperand g).operands ++ fs) _ = _
  rw [unplacedAll_addOperand, List.append_assoc]

theorem derives_braces {opening : Token} (opens : opening.kind = .lbrace)
    (list : (Task.operands f).Derives strict next us (.function g)) :
    (Task.block f).Derives strict next (opening :: us) (.function g) := by
  rintro ts name ps _ head tree ⟨⟩
  obtain ⟨used, r, fs, rfl, closes, solid, all⟩ := list g rfl
  rw [unplaced_eq] at tree
  injection tree with same params none
  rw [all, same, params, none]
  exact .block (opens ▸ head) opens solid closes

theorem derives_signed {t n : Token} {i : Interval} (sign : t.kind = .plus ∨ t.kind = .minus)
    (digits : n.kind = .number) :
    Reads strict .atom next [t, n] (.number (signOf t.kind * (Read.double n.value).value) i) := by
  refine reads_number ?_
  rcases sign with is | is
  · rw [is]
    exact (Double.scale_one _).symm ▸ .positive is digits
  · rw [is]
    exact (Double.scale_minus_one _).symm ▸ .negative is digits

end Steps

/-- What a run reads, the grammar derives. -/
theorem Run.derives {strict : Bool} {task : Task} {next : Kind} {us : List Token} {e : Node}
    (run : Run strict task next us e) : task.Derives strict next us e := by
  induction run with
  | @function next us vs name f g is arguments block iha ihb =>
    rintro _ ⟨⟩
    obtain ⟨ps, head, tree⟩ := iha name f is rfl rfl
    exact ihb (name :: us) name.value ps g head tree rfl
  | bare alone =>
    rintro t _ is rfl ⟨⟩
    exact ⟨[], .bare is alone, rfl⟩
  | @called _ _ _ _ g opens _ ih =>
    rintro t _ is rfl ⟨⟩
    obtain ⟨used, r, bs, rfl, closes, list, distinct, tree⟩ :=
      ih [] g rfl (fun _ => List.nodup_nil) rfl
    exact ⟨collect bs, .called is opens list closes distinct, tree⟩
  | plain =>
    rintro ts name ps _ head tree ⟨⟩
    rw [tree, List.append_nil]
    exact .plain head
  | braces opens _ ih => exact derives_braces opens ih
  | closed closes =>
    rintro as _ so distinct ⟨⟩
    refine ⟨[], _, [], rfl, closes, .none, by simpa using distinct, ?_⟩
    rw [unplaced_cover, unplaced_eq, so, List.append_nil]
  | given is equals _ arithmetic fresh separates _ ihv ihr =>
    exact derives_given is equals ihv arithmetic fresh separates ihr
  | ended closes =>
    rintro _ ⟨⟩
    refine ⟨[], _, [], rfl, closes, .none, ?_⟩
    rw [unplaced_cover, unplaced_eq, List.append_nil]
  | operand _ _ ihf ihr => exact derives_operand ihf ihr
  | value loose _ _ ihf ihr => exact ihf.extend loose ihr
  | stop => exact extends_refl ..
  | operate sign _ _ ihr ihc => exact extends_operator sign ihr ihc
  | number digits => exact reads_number (.number digits)
  | signed sign digits => exact derives_signed sign digits
  | group opens _ closes ih =>
    exact ⟨fun arithmetic => .group opens (ih.value arithmetic) closes,
      fun g single => .group opens (ih.child g single) closes⟩
  | @single _ _ f _ ih =>
    refine ⟨nofun, ?_⟩
    rintro _ ⟨⟩
    exact .child (ih f rfl)

theorem documentFrom_sound {s : Setting} (ends : s.finish.kind = .eof) {n : Nat} {ts rest : List Token}
    {d d' : Document} (accepted : (documentFrom s n d ts).result = .ok (d', rest)) :
    ∃ used fs, ts = used ++ rest ∧ (s.peek rest).kind = .eof ∧ Text s.strict used fs ∧
      unplacedAll d'.operands = unplacedAll d.operands ++ fs := by
  induction n generalizing ts d with
  | zero => exact (fail_ok accepted).elim
  | succ n ih =>
    rw [documentFrom] at accepted
    obtain ⟨f, mid, first, goes⟩ := andThen_ok accepted
    obtain ⟨us, whole, run⟩ := traced_all ends n .function (asNode_result first)
    have solid := run.derives f rfl
    dsimp only at goes
    split at goes
    · rename_i is
      obtain ⟨rfl, rfl⟩ := done_ok goes
      have last := eq_of_beq is
      exact ⟨us, [f.unplaced], whole, last, .last (last ▸ solid), unplacedAll_add d f⟩
    · obtain ⟨vs, fs, more, last, text, all⟩ := ih goes
      rw [more, peek_append, last] at solid
      refine ⟨us ++ vs, [f.unplaced] ++ fs, ?_, last, .more solid text, ?_⟩
      · rw [whole, more, List.append_assoc]
      · rw [all, unplacedAll_add, List.append_assoc]

end DistanceField.Parser

namespace DistanceField

open Grammar

theorem clean_split {ts used rest : List Token} {finish : Token} (clean : Clean ts)
    (ends : finish.kind = .eof) (proper : Clean used) (last : ∀ t ∈ rest.head?, t.kind = .eof)
    (whole : ts ++ [finish] = used ++ rest) : used = ts := by
  cases rest with
  | nil =>
    rw [List.append_nil] at whole
    have inside : finish ∈ used := whole ▸ List.mem_append_right ts (List.mem_singleton_self _)
    exact absurd ends (proper finish inside)
  | cons t rest =>
    rcases List.append_eq_append_iff.mp whole with ⟨us, split, tail⟩ | ⟨us, split, tail⟩
    · cases us with
      | nil => rw [split, List.append_nil]
      | cons u us =>
        have long := congrArg List.length tail
        simp at long
    · cases us with
      | nil => rw [split, List.append_nil]
      | cons u us =>
        have same : t = u := List.head_eq_of_cons_eq tail
        have inside : u ∈ ts := split ▸ List.mem_append_right used List.mem_cons_self
        exact absurd (same ▸ last t rfl) (clean u inside)

/-- What is accepted of tokens before an end of input is derived from the grammar. -/
theorem parseTokens_sound {strict : Bool} {ts : List Token} {finish : Token} {d : Document}
    (clean : Clean ts) (ends : finish.kind = .eof)
    (accepted : (parseTokens strict (ts ++ [finish])).result = .ok d) :
    Text strict ts (unplacedAll d.operands) := by
  obtain ⟨rest, parsed⟩ := parseTokens_ok accepted
  obtain ⟨used, fs, whole, last, text, all⟩ := Parser.documentFrom_sound rfl parsed
  have same : used = ts := by
    refine clean_split clean ends text.clean ?_ whole
    intro t first
    obtain ⟨rest, rfl⟩ := List.head?_eq_some_iff.mp first
    exact last
  have tree : unplacedAll d.operands = fs := all
  rw [tree, ← same]
  exact text

end DistanceField
