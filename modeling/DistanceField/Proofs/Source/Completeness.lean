import DistanceField.Proofs.Source.Replay
import DistanceField.Proofs.Source.Soundness

/-! The parser accepts all that the grammar derives: each derivation is a run, which finds the tree of the
derivation, and the fuel suffices for it. -/
namespace DistanceField

open Grammar

namespace Parser

section Arithmetic

variable {strict : Bool} {level : Level} {next : Kind} {us vs : List Token} {l r e : Node}

/-- The expression `e` was read as `e'`. -/
structure Same (e' e : Node) : Prop where
  tree : e'.unplaced = e
  arithmetic : e'.function? = none

theorem same_operator {op : Token} {l' r' : Node} (left : Same l' l) (right : Same r' r) :
    Same (operator op l' r') (.operator op.kind l r .none) := by
  refine ⟨?_, ?_⟩
  · rw [← left.tree, ← right.tree]
    rfl
  · simp [operator, Node.function?, left.arithmetic, right.arithmetic]

/-- Tokens are read as `e` and leave the operators that may follow to the chain behind it. -/
def Leads (strict : Bool) (level : Level) (us : List Token) (e : Node) : Prop :=
  ∃ e', Same e' e ∧ ∀ next vs x, ¬ Binds (tighter level) (ahead vs next) →
    Run strict (.chain level e') next vs x → Run strict (.value level) next (us ++ vs) x

theorem Leads.run (leads : Leads strict level us e) (stops : ¬ Binds level next)
    (tight : ¬ Binds (tighter level) next) : ∃ e', Same e' e ∧ Run strict (.value level) next us e' := by
  obtain ⟨e', same, goes⟩ := leads
  refine ⟨e', same, ?_⟩
  simpa using goes next [] e' tight (.stop stops)

theorem leads_atom {e' : Node} (same : Same e' e)
    (reads : ∀ next, Run strict (.value .atom) next us e') : Leads strict .atom us e := by
  refine ⟨e', same, fun next vs x _ chain => ?_⟩
  cases chain with
  | stop =>
    rw [List.append_nil]
    exact reads next
  | operate sign => exact sign.elim

theorem not_binds_atom (level : Level) (k : Kind) : ¬ Binds (tighter (tighter level)) k := by
  cases level <;> exact id

theorem Leads.loosen (loose : level ≠ .atom) (tight : Leads strict (tighter level) us e) :
    Leads strict level us e := by
  obtain ⟨e', same, goes⟩ := tight
  refine ⟨e', same, fun next vs x stops chain => .value loose ?_ chain⟩
  simpa using goes _ [] e' (not_binds_atom level _) (.stop stops)

theorem Binds.not_tighter {k : Kind} (binds : Binds level k) : ¬ Binds (tighter level) k := by
  cases level with
  | sum => rcases binds with rfl | rfl <;> simp [tighter, Binds]
  | product => exact id
  | atom => exact id

theorem Leads.operator {op : Token} (sign : Binds level op.kind) (left : Leads strict level us l)
    (right : Leads strict (tighter level) vs r) :
    Leads strict level (us ++ op :: vs) (.operator op.kind l r .none) := by
  obtain ⟨l', samel, goes⟩ := left
  obtain ⟨r', samer, ends⟩ := right
  refine ⟨Parser.operator op l' r', same_operator samel samer, fun next ws x stops chain => ?_⟩
  have read : Run strict (.value (tighter level)) (ahead ws next) vs r' := by
    simpa using ends _ [] r' (not_binds_atom level _) (.stop stops)
  simpa using goes next (op :: (vs ++ ws)) x sign.not_tighter (.operate sign read chain)

theorem leads_signed {t n : Token} {v : Float} (sign : t.kind = .plus ∨ t.kind = .minus)
    (digits : n.kind = .number) (value : signOf t.kind * (Read.double n.value).value = v) :
    Leads strict .atom [t, n] (.number v .none) :=
  leads_atom ⟨by rw [← value]; rfl, rfl⟩ fun _ => .signed sign digits

theorem formula_leads (value : Formula level us e) : Leads strict level us e := by
  induction value with
  | number digits => exact leads_atom ⟨rfl, rfl⟩ fun _ => .number digits
  | positive sign digits =>
    exact leads_signed (.inl sign) digits (by rw [sign]; exact Double.scale_one _)
  | negative sign digits =>
    exact leads_signed (.inr sign) digits (by rw [sign]; exact Double.scale_minus_one _)
  | group opens _ closes ih =>
    have stops (level : Level) : ¬ Binds level .rparen := fun binds => binds.ne (by decide) rfl
    obtain ⟨e', same, run⟩ := ih.run (stops _) (stops _)
    exact leads_atom same fun _ => .group opens run closes
  | factor _ ih | term _ ih => exact ih.loosen nofun
  | product _ sign _ ihl ihr | sum _ sign _ ihl ihr => exact ihl.operator sign ihr

end Arithmetic

section Functions

variable {strict : Bool} {next : Kind} {us vs : List Token} {f : Function}

theorem Separates.not_binds {sep : List Token} (separates : Separates (ahead vs next) sep)
    (level : Level) : ¬ Binds level (ahead (sep ++ vs) next) := by
  intro binds
  cases separates with
  | none ends => exact binds.ne (by decide) ends
  | comma is => exact binds.ne (by decide) is

theorem assign_run {a : Bytes × Node} {as : List (Bytes × Node)} {sep : List Token}
    (assign : Assign us a) (separates : Separates (ahead vs next) sep)
    (so : unplacedParams f.params = collect as)
    (fresh : strict = true → a.1 ∉ as.map Prod.fst) :
    ∃ g, unplacedParams g.params = collect (as ++ [a]) ∧ g.name = f.name ∧
      g.operands = f.operands ∧ ∀ h, Run strict (.parameters g) next vs (.function h) →
        Run strict (.parameters f) next (us ++ (sep ++ vs)) (.function h) := by
  obtain @⟨name, eq, ts, e, named, given, value⟩ := assign
  obtain ⟨e', same, read⟩ :=
    (formula_leads value).run (separates.not_binds _) (separates.not_binds _)
  obtain ⟨collected, known⟩ := @assign_collect f as name.value e' so
  rw [same.tree] at collected
  refine ⟨(f.assign name.value e').cover e'.span, collected, assign_name .., assign_operands .., ?_⟩
  intro h goes
  exact .given named given read same.arithmetic (fun strict found => fresh strict (known.mp found))
    separates goes

theorem fresh_of_nodup {a : Bytes × Node} {as bs : List (Bytes × Node)}
    (distinct : strict = true → ((as ++ a :: bs).map Prod.fst).Nodup) (so : strict = true) :
    a.1 ∉ as.map Prod.fst := by
  intro found
  have nodup := distinct so
  rw [List.map_append, List.nodup_append'] at nodup
  exact nodup.2.2 found (List.mem_map_of_mem List.mem_cons_self)

theorem assigns_run {bs : List (Bytes × Node)} (list : Assigns us bs) {as : List (Bytes × Node)}
    {r : Token} (closes : r.kind = .rparen) (so : unplacedParams f.params = collect as)
    (distinct : strict = true → ((as ++ bs).map Prod.fst).Nodup) :
    ∃ g, Run strict (.parameters f) next (us ++ [r]) (.function g) ∧
      g.unplaced = .mk f.name (collect (as ++ bs)) (unplacedAll f.operands) .none := by
  induction list generalizing f as with
  | none =>
    refine ⟨_, .closed closes, ?_⟩
    rw [unplaced_cover, unplaced_eq, so, List.append_nil]
  | last assign =>
    obtain ⟨g, params, name, operands, goes⟩ := @assign_run strict next _ [r] f _ as []
      assign (.none closes) so (fresh_of_nodup distinct)
    refine ⟨_, goes _ (.closed closes), ?_⟩
    rw [unplaced_cover, unplaced_eq, params, name, operands]
  | @more ts us sep a bs assign comma list ih =>
    obtain ⟨g, params, name, operands, goes⟩ := @assign_run strict next _ (us ++ [r]) f _ as [sep]
      assign (.comma comma) so (fresh_of_nodup distinct)
    obtain ⟨h, run, tree⟩ := ih params (by simpa using distinct)
    refine ⟨h, by simpa using goes h run, ?_⟩
    rw [tree, name, operands, List.append_assoc, List.singleton_append]

/-- What may stand directly behind a function. -/
def calm (k : Kind) : Bool :=
  k == .identifier || k == .lparen || k == .rparen || k == .rbrace || k == .eof

theorem calm_stops {k : Kind} (quiet : calm k = true) :
    k ≠ .lbrace ∧ ∀ level, ¬ Binds level k := by
  refine ⟨?_, fun level binds => ?_⟩
  · rintro rfl
    exact absurd quiet (by decide)
  · have outside : ∀ k ∈ [Kind.plus, .minus, .star, .slash], calm k = false := by decide
    refine binds.ne (fun inside => ?_) rfl
    exact absurd quiet (by simp [outside k inside])

theorem head_run {name : Bytes} {ps : List (Bytes × Node)} (head : Head strict next us name ps) :
    ∃ t ts f, us = t :: ts ∧ t.kind = .identifier ∧ f.unplaced = .mk name ps [] .none ∧
      Run strict (.arguments (named t)) next ts (.function f) := by
  cases head with
  | @bare t is alone => exact ⟨t, [], named t, rfl, is, rfl, .bare alone⟩
  | @called t l r us as is opens list closes distinct =>
    obtain ⟨g, run, tree⟩ := @assigns_run strict next us (named t) as list [] r closes rfl distinct
    exact ⟨t, l :: (us ++ [r]), g, rfl, is, tree, .called opens run⟩

theorem function_named {fs : List Function} (function : Solid strict .function next us fs) :
    ∃ t rest, us = t :: rest ∧ t.kind = .identifier := by
  cases function with
  | plain head =>
    obtain ⟨t, ts, -, rfl, is, -⟩ := head_run head
    exact ⟨t, ts, rfl, is⟩
  | block head =>
    obtain ⟨t, ts, -, rfl, is, -⟩ := head_run head
    exact ⟨t, _, rfl, is⟩

theorem child_starts {fs : List Function} (child : Solid strict .child next us fs) :
    ∃ t rest, us = t :: rest ∧ (t.kind = .identifier ∨ t.kind = .lparen) := by
  cases child with
  | child function =>
    obtain ⟨t, rest, rfl, named⟩ := function_named function
    exact ⟨t, rest, rfl, .inl named⟩
  | group opens => exact ⟨_, _, rfl, .inr opens⟩

theorem children_calm {fs : List Function} (children : Solid strict .children .rbrace us fs) :
    calm (ahead us .rbrace) = true := by
  cases children with
  | none => rfl
  | more first rest =>
    obtain ⟨t, ts, rfl, is⟩ := child_starts first
    show calm t.kind = true
    rcases is with is | is <;> rw [is] <;> rfl

end Functions

end Parser

/-- How functions are read, whatever calm token stands behind them. -/
def Grammar.Part.Runs (strict : Bool) (next : Kind) (us : List Token) (fs : List Function) :
    Part → Prop
  | .function => Parser.calm next = true →
    ∃ f, Parser.Run strict .function next us (.function f) ∧ [f.unplaced] = fs
  | .child => Parser.calm next = true →
    ∃ f, Parser.Run strict (.value .sum) next us (.function f) ∧ [f.unplaced] = fs
  | .children => next = .rbrace → ∀ f r k, r.kind = .rbrace →
    ∃ g, Parser.Run strict (.operands f) k (us ++ [r]) (.function g) ∧
      g.unplaced = .mk f.name (unplacedParams f.params) (unplacedAll f.operands ++ fs) .none

namespace Parser

section Solids

variable {strict : Bool} {next : Kind} {us vs : List Token} {l r : Token} {name : Bytes}
  {ps : List (Bytes × Node)} {fs gs : List Function}

theorem runs_plain (head : Head strict next us name ps) :
    Part.function.Runs strict next us [.mk name ps [] .none] := by
  intro quiet
  obtain ⟨t, ts, f, rfl, is, tree, run⟩ := head_run head
  refine ⟨f, ?_, by rw [tree]⟩
  simpa using Run.function is run (.plain (calm_stops quiet).1)

theorem runs_block (head : Head strict .lbrace us name ps) (opens : l.kind = .lbrace)
    (inner : Part.children.Runs strict .rbrace vs fs) (closes : r.kind = .rbrace) :
    Part.function.Runs strict next (us ++ l :: (vs ++ [r])) [.mk name ps fs .none] := by
  intro _
  obtain ⟨t, ts, f, rfl, is, tree, run⟩ := head_run head
  obtain ⟨g, list, all⟩ := inner rfl f r next closes
  rw [unplaced_eq] at tree
  injection tree with same params none
  refine ⟨g, ?_, by rw [all, same, params, none, List.nil_append]⟩
  rw [← opens] at run
  exact .function is run (.braces opens list)

/-- A single operand is a sum of one product of one factor. -/
theorem run_single {e : Node} (quiet : calm next = true)
    (atom : Run strict (.value .atom) next us e) : Run strict (.value .sum) next us e := by
  have stop (level : Level) : Run strict (.chain level e) next [] e :=
    .stop ((calm_stops quiet).2 level)
  have product : Run strict (.value .product) next (us ++ []) e := .value nofun atom (stop .product)
  have sum : Run strict (.value .sum) next (us ++ [] ++ []) e := .value nofun product (stop .sum)
  simpa using sum

theorem runs_group (opens : l.kind = .lparen) (inner : Part.child.Runs strict .rparen us fs)
    (closes : r.kind = .rparen) : Part.child.Runs strict next (l :: (us ++ [r])) fs := by
  intro quiet
  obtain ⟨f, run, tree⟩ := inner rfl
  exact ⟨f, run_single quiet (.group opens run closes), tree⟩

theorem runs_none : Part.children.Runs strict next [] [] := by
  intro _ f r k closes
  refine ⟨f.cover r.span, .ended closes, ?_⟩
  rw [unplaced_cover, unplaced_eq, List.append_nil]

theorem runs_more (calmly : next = .rbrace → calm (ahead vs next) = true)
    (first : Part.child.Runs strict (ahead vs next) us fs)
    (rest : Part.children.Runs strict next vs gs) :
    Part.children.Runs strict next (us ++ vs) (fs ++ gs) := by
  intro brace f r k closes
  obtain ⟨g, read, tree⟩ := first (calmly brace)
  obtain ⟨h, goes, all⟩ := rest brace ((f.addOperand g).cover g.span) r k closes
  have front : ahead vs next = ahead (vs ++ [r]) k := by
    subst brace
    cases vs <;> simp [ahead, closes]
  rw [front] at read
  refine ⟨h, by simpa using Run.operand read goes, ?_⟩
  rw [all, ← tree]
  show Function.mk f.name (unplacedParams f.params) (unplacedAll (f.addOperand g).operands ++ gs) _ = _
  rw [unplacedAll_addOperand, List.append_assoc]

theorem solid_runs {part : Part} (solid : Solid strict part next us fs) :
    part.Runs strict next us fs := by
  induction solid with
  | plain head => exact runs_plain head
  | block head opens _ closes ih => exact runs_block head opens ih closes
  | child _ ih =>
    intro quiet
    obtain ⟨f, run, tree⟩ := ih quiet
    exact ⟨f, run_single quiet (.single run), tree⟩
  | group opens _ closes ih => exact runs_group opens ih closes
  | none => exact runs_none
  | more _ rest ihf ihr =>
    -- a function must not take what follows it for its parameters or its block
    refine runs_more ?_ ihf ihr
    rintro rfl
    exact children_calm rest

theorem text_starts (text : Text strict us fs) : ∃ t rest, us = t :: rest ∧ t.kind = .identifier := by
  cases text with
  | last function => exact function_named function
  | more function rest =>
    obtain ⟨t, us, rfl, named⟩ := function_named function
    exact ⟨t, _, rfl, named⟩

end Solids

theorem text_complete {s : Setting} {ts : List Token} {fs : List Function} (text : Text s.strict ts fs)
    {n : Nat} {d : Document} {rest : List Token} (fuel : 8 * ts.length ≤ n + 6)
    (ends : (s.peek rest).kind = .eof) :
    ∃ d', Succeeds s (documentFrom s n d (ts ++ rest)) d' rest ∧
      unplacedAll d'.operands = unplacedAll d.operands ++ fs := by
  induction text generalizing n d with
  | last function =>
    obtain ⟨f, run, tree⟩ := solid_runs function rfl
    obtain ⟨t, us, rfl, -⟩ := function_named function
    rw [List.length_cons] at fuel
    obtain ⟨n, rfl⟩ := Nat.exists_eq_add_of_le' (show 1 ≤ n by omega)
    have read := asNode_succeeds.mp
      (run.replays n rest (by simp only [List.length_cons, Task.cost]; omega) ends)
    refine ⟨d.add f, ?_, by rw [unplacedAll_add, tree]⟩
    rw [documentFrom]
    refine read.andThen ?_
    rw [ends]
    exact succeeds_done ..
  | @more ts us fs gs function text ih =>
    obtain ⟨t, vs, rfl, -⟩ := function_named function
    obtain ⟨u, ws, rfl, named⟩ := text_starts text
    have quiet : calm (ahead (u :: ws) .eof) = true := by
      show calm u.kind = true
      rw [named]
      rfl
    obtain ⟨f, run, tree⟩ := solid_runs function quiet
    rw [List.length_append, List.length_cons] at fuel
    obtain ⟨n, rfl⟩ := Nat.exists_eq_add_of_le' (show 1 ≤ n by omega)
    have read := asNode_succeeds.mp
      (run.replays n (u :: ws ++ rest) (by simp only [List.length_cons, Task.cost]; omega) rfl)
    obtain ⟨d', goes, all⟩ := ih (n := n) (d := d.add f) (by omega)
    refine ⟨d', ?_, by rw [all, unplacedAll_add, tree, List.append_assoc]⟩
    have front : (s.peek (u :: ws ++ rest)).kind = .identifier := named
    rw [List.append_assoc, documentFrom]
    refine read.andThen ?_
    dsimp only
    rw [front, if_neg (by decide)]
    exact goes

end Parser

/-- What is derived is accepted before an end of input, silently when strict. -/
theorem parseTokens_complete {strict : Bool} {ts : List Token} {fs : List Function}
    {finish : Token} (text : Text strict ts fs) (ends : finish.kind = .eof) :
    ∃ d, (parseTokens strict (ts ++ [finish])).result = .ok d ∧ unplacedAll d.operands = fs ∧
      (strict = true → (parseTokens strict (ts ++ [finish])).warnings = []) := by
  obtain ⟨d, read, tree⟩ := @Parser.text_complete ⟨strict, finishOf (ts ++ [finish])⟩ ts fs text
    (8 * ((ts ++ [finish]).length + 1)) ⟨[], .none⟩ [finish]
    (by rw [List.length_append, List.length_singleton]; omega) ends
  refine ⟨d, ?_, tree, read.silent⟩
  show Except.map _ _ = _
  rw [read.result]
  rfl

/-- The parser accepts exactly the grammar: tokens before an end of input are accepted with a tree,
places apart, if and only if they derive it. -/
theorem parseTokens_ok_iff_derived {ts : List Token} (clean : ∀ t ∈ ts, t.kind ≠ .eof)
    {finish : Token} (ends : finish.kind = .eof) (fs : List Function) :
    (∃ d, (parseTokens false (ts ++ [finish])).result = .ok d ∧
        d.operands.map Function.unplaced = fs) ↔ Text false ts fs := by
  constructor
  · rintro ⟨d, accepted, rfl⟩
    rw [← unplacedAll_eq_map]
    exact parseTokens_sound clean ends accepted
  · intro text
    obtain ⟨d, accepted, tree, -⟩ := parseTokens_complete text ends
    exact ⟨d, accepted, by rw [← unplacedAll_eq_map, tree]⟩

def grouped : List Token :=
  [⟨.identifier, [97], .none⟩, ⟨.lparen, [], .none⟩, ⟨.rparen, [], .none⟩, ⟨.lbrace, [], .none⟩,
    ⟨.identifier, [98], .none⟩, ⟨.lparen, [], .none⟩, ⟨.rparen, [], .none⟩, ⟨.lparen, [], .none⟩,
    ⟨.identifier, [99], .none⟩, ⟨.lbrace, [], .none⟩, ⟨.identifier, [100], .none⟩,
    ⟨.rbrace, [], .none⟩, ⟨.rparen, [], .none⟩, ⟨.rbrace, [], .none⟩]

theorem grouped_derived :
    (∀ t ∈ grouped, t.kind ≠ .eof) ∧
      Text false grouped
        [.mk [97] [] [.mk [98] [] [] .none, .mk [99] [] [.mk [100] [] [] .none] .none] .none] :=
  ⟨by decide,
    (@parseTokens_ok_iff_derived grouped (by decide) (Token.finish 0) rfl _).mp ⟨_, rfl, rfl⟩⟩

end DistanceField
