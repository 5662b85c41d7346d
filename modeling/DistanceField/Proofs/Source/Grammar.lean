import Mathlib
import DistanceField.Source.Parser

/-! The grammar of source texts over their tokens, and the tree of each derivation. -/
namespace DistanceField

mutual

def Node.unplaced : Node → Node
  | .missing => .missing
  | .number v _ => .number v .none
  | .operator op l r _ => .operator op l.unplaced r.unplaced .none
  | .function f => .function f.unplaced
  | .root fs _ => .root (unplacedAll fs) .none

def Function.unplaced : Function → Function
  | .mk name params operands _ => .mk name (unplacedParams params) (unplacedAll operands) .none

def unplacedParams : List (Bytes × Node) → List (Bytes × Node)
  | [] => []
  | (n, e) :: rest => (n, e.unplaced) :: unplacedParams rest

def unplacedAll : List Function → List Function
  | [] => []
  | f :: rest => f.unplaced :: unplacedAll rest

end

theorem unplacedAll_eq_map (fs : List Function) : unplacedAll fs = fs.map Function.unplaced := by
  induction fs with
  | nil => rfl
  | cons f fs ih => rw [unplacedAll, ih, List.map_cons]

theorem unplacedParams_eq_map (ps : List (Bytes × Node)) :
    unplacedParams ps = ps.map fun p => (p.1, p.2.unplaced) := by
  induction ps with
  | nil => rfl
  | cons p ps ih =>
    obtain ⟨n, e⟩ := p
    rw [unplacedParams, ih, List.map_cons]

theorem unplacedAll_add (d : Document) (f : Function) :
    unplacedAll (d.add f).operands = unplacedAll d.operands ++ [f.unplaced] := by
  simp only [Document.add, unplacedAll_eq_map, List.map_append, List.map_singleton]

theorem unplacedAll_addOperand (f g : Function) :
    unplacedAll (f.addOperand g).operands = unplacedAll f.operands ++ [g.unplaced] := by
  simp only [Function.addOperand, Function.operands, unplacedAll_eq_map, List.map_append,
    List.map_singleton]

namespace Grammar

inductive Level where
  | sum
  | product
  | atom

/-- Arithmetic: `+` and `-` bind looser than `*` and `/`, all of them to the left; a sign belongs to
its number, and parentheses leave no trace. -/
inductive Formula : Level → List Token → Node → Prop where
  | number {t : Token} (digits : t.kind = .number) :
      Formula .atom [t] (.number (Read.double t.value).value .none)
  | positive {s t : Token} (sign : s.kind = .plus) (digits : t.kind = .number) :
      Formula .atom [s, t] (.number (Read.double t.value).value .none)
  | negative {s t : Token} (sign : s.kind = .minus) (digits : t.kind = .number) :
      Formula .atom [s, t] (.number (-(Read.double t.value).value) .none)
  | group {l r : Token} {ts : List Token} {e : Node} (opens : l.kind = .lparen)
      (inner : Formula .sum ts e) (closes : r.kind = .rparen) : Formula .atom (l :: (ts ++ [r])) e
  | factor {ts : List Token} {e : Node} (atom : Formula .atom ts e) : Formula .product ts e
  | product {ts us : List Token} {op : Token} {l r : Node} (left : Formula .product ts l)
      (sign : op.kind = .star ∨ op.kind = .slash) (right : Formula .atom us r) :
      Formula .product (ts ++ op :: us) (.operator op.kind l r .none)
  | term {ts : List Token} {e : Node} (product : Formula .product ts e) : Formula .sum ts e
  | sum {ts us : List Token} {op : Token} {l r : Node} (left : Formula .sum ts l)
      (sign : op.kind = .plus ∨ op.kind = .minus) (right : Formula .product us r) :
      Formula .sum (ts ++ op :: us) (.operator op.kind l r .none)

/-- `IDENTIFIER '=' sum` -/
inductive Assign : List Token → Bytes × Node → Prop where
  | mk {name eq : Token} {ts : List Token} {e : Node} (named : name.kind = .identifier)
      (given : eq.kind = .assign) (value : Formula .sum ts e) :
      Assign (name :: eq :: ts) (name.value, e)

/-- `[ assign (',' assign)* [','] ]` -/
inductive Assigns : List Token → List (Bytes × Node) → Prop where
  | none : Assigns [] []
  | last {ts : List Token} {a : Bytes × Node} (assign : Assign ts a) : Assigns ts [a]
  | more {ts us : List Token} {sep : Token} {a : Bytes × Node} {as : List (Bytes × Node)}
      (assign : Assign ts a) (comma : sep.kind = .comma) (rest : Assigns us as) :
      Assigns (ts ++ sep :: us) (a :: as)

/-- Each name once, by first appearance, with the value it is given last. -/
def collect (as : List (Bytes × Node)) : List (Bytes × Node) :=
  (as.map Prod.fst).eraseDups.filterMap fun n => (as.reverse.lookup n).map (n, ·)

/-- The kind of the first token; `next` is the kind of what follows them all. -/
def ahead (ts : List Token) (next : Kind) : Kind := (ts.head?.map Token.kind).getD next

/-- A name with its parameters. One that is directly followed by `(` takes it as its parameter
list; `next` is the kind of the token behind. When `strict` no name may be given twice. -/
inductive Head (strict : Bool) (next : Kind) :
    List Token → Bytes → List (Bytes × Node) → Prop where
  | bare {name : Token} (named : name.kind = .identifier) (alone : next ≠ .lparen) :
      Head strict next [name] name.value []
  | called {name l r : Token} {ts : List Token} {as : List (Bytes × Node)}
      (named : name.kind = .identifier) (opens : l.kind = .lparen) (list : Assigns ts as)
      (closes : r.kind = .rparen) (distinct : strict = true → (as.map Prod.fst).Nodup) :
      Head strict next (name :: l :: (ts ++ [r])) name.value (collect as)

inductive Part where
  | function
  | child
  | children

/-- `function := head [ '{' child* '}' ]`, `child := function | '(' child ')'` -/
inductive Solid (strict : Bool) : Part → (next : Kind) → List Token → List Function → Prop where
  | plain {next : Kind} {ts : List Token} {name : Bytes} {ps : List (Bytes × Node)}
      (head : Head strict next ts name ps) :
      Solid strict .function next ts [.mk name ps [] .none]
  | block {next : Kind} {ts us : List Token} {l r : Token} {name : Bytes}
      {ps : List (Bytes × Node)} {fs : List Function} (head : Head strict .lbrace ts name ps)
      (opens : l.kind = .lbrace) (inner : Solid strict .children .rbrace us fs)
      (closes : r.kind = .rbrace) :
      Solid strict .function next (ts ++ l :: (us ++ [r])) [.mk name ps fs .none]
  | child {next : Kind} {ts : List Token} {fs : List Function}
      (function : Solid strict .function next ts fs) : Solid strict .child next ts fs
  | group {next : Kind} {ts : List Token} {l r : Token} {fs : List Function}
      (opens : l.kind = .lparen) (inner : Solid strict .child .rparen ts fs)
      (closes : r.kind = .rparen) : Solid strict .child next (l :: (ts ++ [r])) fs
  | none {next : Kind} : Solid strict .children next [] []
  | more {next : Kind} {ts us : List Token} {fs gs : List Function}
      (first : Solid strict .child (ahead us next) ts fs)
      (rest : Solid strict .children next us gs) :
      Solid strict .children next (ts ++ us) (fs ++ gs)

/-- `document := function+` -/
inductive Text (strict : Bool) : List Token → List Function → Prop where
  | last {ts : List Token} {fs : List Function} (function : Solid strict .function .eof ts fs) :
      Text strict ts fs
  | more {ts us : List Token} {fs gs : List Function}
      (function : Solid strict .function (ahead us .eof) ts fs) (rest : Text strict us gs) :
      Text strict (ts ++ us) (fs ++ gs)

def Clean (ts : List Token) : Prop := ∀ t ∈ ts, t.kind ≠ .eof

theorem clean_nil : Clean [] := nofun

theorem clean_cons {t : Token} {ts : List Token} {k : Kind} (is : t.kind = k) (proper : k ≠ .eof)
    (rest : Clean ts) : Clean (t :: ts) := by
  intro u found
  rcases List.mem_cons.mp found with rfl | later
  · exact is ▸ proper
  · exact rest u later

theorem Clean.append {ts us : List Token} (first : Clean ts) (second : Clean us) :
    Clean (ts ++ us) := by
  intro t found
  rcases List.mem_append.mp found with left | right
  · exact first t left
  · exact second t right

theorem Formula.clean {level : Level} {ts : List Token} {e : Node} (value : Formula level ts e) :
    Clean ts := by
  induction value with
  | number digits => exact clean_cons digits nofun clean_nil
  | positive sign digits | negative sign digits =>
    exact clean_cons sign nofun (clean_cons digits nofun clean_nil)
  | group opens _ closes ih =>
    exact clean_cons opens nofun (ih.append (clean_cons closes nofun clean_nil))
  | factor _ ih | term _ ih => exact ih
  | product _ sign _ ihl ihr | sum _ sign _ ihl ihr =>
    rcases sign with is | is <;> exact ihl.append (clean_cons is nofun ihr)

theorem Formula.filled {level : Level} {ts : List Token} {e : Node} (value : Formula level ts e) :
    1 ≤ ts.length := by
  induction value with
  | number | positive | negative | group => simp
  | factor _ ih | term _ ih => exact ih
  | product | sum =>
    rw [List.length_append, List.length_cons]
    omega

theorem Assign.clean {ts : List Token} {a : Bytes × Node} (assign : Assign ts a) : Clean ts := by
  cases assign with
  | mk named given value => exact clean_cons named nofun (clean_cons given nofun value.clean)

theorem Assigns.clean {ts : List Token} {as : List (Bytes × Node)} (list : Assigns ts as) :
    Clean ts := by
  induction list with
  | none => exact clean_nil
  | last assign => exact assign.clean
  | more assign comma _ ih => exact assign.clean.append (clean_cons comma nofun ih)

theorem Assigns.starts {ts : List Token} {as : List (Bytes × Node)} (list : Assigns ts as) :
    ts = [] ∧ as = [] ∨
      ∃ name eq rest, ts = name :: eq :: rest ∧ name.kind = .identifier ∧ eq.kind = .assign := by
  have one {us : List Token} {a : Bytes × Node} (assign : Assign us a) (more : List Token) :
      ∃ name eq rest, us ++ more = name :: eq :: rest ∧ name.kind = .identifier ∧
        eq.kind = .assign := by
    cases assign with
    | mk named given _ => exact ⟨_, _, _, rfl, named, given⟩
  cases list with
  | none => exact .inl ⟨rfl, rfl⟩
  | last assign =>
    obtain ⟨name, eq, rest, split, kinds⟩ := one assign []
    exact .inr ⟨name, eq, rest, (List.append_nil _).symm.trans split, kinds⟩
  | more assign _ _ => exact .inr (one assign _)

theorem Head.clean {strict : Bool} {next : Kind} {ts : List Token} {name : Bytes}
    {ps : List (Bytes × Node)} (head : Head strict next ts name ps) : Clean ts := by
  cases head with
  | bare named _ => exact clean_cons named nofun clean_nil
  | called named opens list closes _ =>
    exact clean_cons named nofun (clean_cons opens nofun
      (list.clean.append (clean_cons closes nofun clean_nil)))

theorem Solid.clean {strict : Bool} {part : Part} {next : Kind} {ts : List Token}
    {fs : List Function} (solid : Solid strict part next ts fs) : Clean ts := by
  induction solid with
  | plain head => exact head.clean
  | block head opens _ closes ih =>
    exact head.clean.append (clean_cons opens nofun
      (ih.append (clean_cons closes nofun clean_nil)))
  | child _ ih => exact ih
  | group opens _ closes ih =>
    exact clean_cons opens nofun (ih.append (clean_cons closes nofun clean_nil))
  | none => exact clean_nil
  | more _ _ ihf ihr => exact ihf.append ihr

theorem Text.clean {strict : Bool} {ts : List Token} {fs : List Function} (text : Text strict ts fs) :
    Clean ts := by
  induction text with
  | last function => exact function.clean
  | more function _ ih => exact function.clean.append ih

theorem lookup_given {as : List (Bytes × Node)} {n : Bytes} (found : n ∈ as.map Prod.fst) :
    ∃ v, as.reverse.lookup n = some v := by
  obtain ⟨a, here, rfl⟩ := List.mem_map.mp found
  apply Option.isSome_iff_exists.mp
  rw [List.lookup_isSome_iff]
  exact ⟨a, List.mem_reverse.mpr here, beq_self_eq_true _⟩

theorem names_collect (as : List (Bytes × Node)) :
    (collect as).map Prod.fst = (as.map Prod.fst).eraseDups := by
  unfold collect
  rw [List.map_filterMap]
  have given : ∀ n ∈ (as.map Prod.fst).eraseDups,
      ((as.reverse.lookup n).map (n, ·)).map Prod.fst = some n := by
    intro n found
    obtain ⟨v, value⟩ := lookup_given (List.mem_eraseDups.mp found)
    rw [value]
    rfl
  rw [List.filterMap_congr given, List.filterMap_some]

theorem mem_of_mem_collect {as : List (Bytes × Node)} {a : Bytes × Node} (found : a ∈ collect as) :
    a ∈ as := by
  obtain ⟨n, -, given⟩ := List.mem_filterMap.mp found
  obtain ⟨v, last, rfl⟩ := Option.map_eq_some_iff.mp given
  obtain ⟨before, behind, split, -⟩ := List.lookup_eq_some_iff.mp last
  rw [← List.mem_reverse, split]
  exact List.mem_append_right _ (List.mem_cons_self ..)

theorem collect_known {as : List (Bytes × Node)} {n : Bytes} (known : n ∈ as.map Prod.fst) (v : Node) :
    collect (as ++ [(n, v)]) = (collect as).map fun a => if a.1 == n then (a.1, v) else a := by
  have none : [n].removeAll (as.map Prod.fst) = [] := by simpa [List.removeAll] using known
  unfold collect
  rw [List.map_append, List.map_singleton, List.eraseDups_append, none, List.eraseDups_nil,
    List.append_nil, List.map_filterMap, List.reverse_concat]
  apply List.filterMap_congr
  intro m found
  obtain ⟨w, value⟩ := lookup_given (List.mem_eraseDups.mp found)
  rw [List.lookup_cons, value]
  cases same : m == n
  · simp only [Option.map_some, same, Bool.false_eq_true, if_false]
  · simp only [Option.map_some, same, if_true]

theorem collect_fresh {as : List (Bytes × Node)} {n : Bytes} (fresh : n ∉ as.map Prod.fst) (v : Node) :
    collect (as ++ [(n, v)]) = collect as ++ [(n, v)] := by
  have one : [n].removeAll (as.map Prod.fst) = [n] := by simpa [List.removeAll] using fresh
  have old : ∀ m ∈ (as.map Prod.fst).eraseDups,
      (((n, v) :: as.reverse).lookup m).map (m, ·) = (as.reverse.lookup m).map (m, ·) := by
    intro m found
    have other : (m == n) = false := by
      rw [beq_eq_false_iff_ne]
      rintro rfl
      exact fresh (List.mem_eraseDups.mp found)
    rw [List.lookup_cons, other]
  unfold collect
  rw [List.map_append, List.map_singleton, List.eraseDups_append, one, List.reverse_concat,
    List.filterMap_append, List.filterMap_congr old, List.eraseDups_cons, List.filter_nil,
    List.eraseDups_nil, List.filterMap_cons, List.filterMap_nil, List.lookup_cons_self,
    Option.map_some]

theorem nodup_collect (as : List (Bytes × Node)) : ((collect as).map Prod.fst).Nodup := by
  induction as using List.reverseRecOn with
  | nil => exact List.nodup_nil
  | append_singleton as a ih =>
    obtain ⟨n, v⟩ := a
    by_cases known : n ∈ as.map Prod.fst
    · have names : (Prod.fst ∘ fun a : Bytes × Node => if a.1 == n then (a.1, v) else a) = Prod.fst := by
        funext a
        show (if a.1 == n then (a.1, v) else a).1 = a.1
        split <;> rfl
      rwa [collect_known known, List.map_map, names]
    · have fresh : n ∉ (collect as).map Prod.fst := by
        rwa [names_collect, List.mem_eraseDups]
      rw [collect_fresh known, List.map_append, List.map_singleton]
      exact ih.append (List.nodup_singleton n) (by simpa using fresh)

/-- Names given once are kept as they are given. -/
theorem collect_distinct {as : List (Bytes × Node)} (distinct : (as.map Prod.fst).Nodup) :
    collect as = as := by
  induction as using List.reverseRecOn with
  | nil => rfl
  | append_singleton as a ih =>
    obtain ⟨n, v⟩ := a
    rw [List.map_append, List.map_singleton, List.nodup_append] at distinct
    obtain ⟨before, -, apart⟩ := distinct
    have fresh : n ∉ as.map Prod.fst := fun found => apart n found n (List.mem_singleton_self n) rfl
    rw [collect_fresh fresh, ih before]

theorem assign_collect {f : Function} {as : List (Bytes × Node)} {n : Bytes} {e : Node}
    (so : unplacedParams f.params = collect as) :
    unplacedParams (f.assign n e).params = collect (as ++ [(n, e.unplaced)]) ∧
      ((f.param? n).isSome = true ↔ n ∈ as.map Prod.fst) := by
  have names : f.params.map Prod.fst = (as.map Prod.fst).eraseDups := by
    rw [← names_collect, ← so, unplacedParams_eq_map, List.map_map]
    rfl
  have given : (f.param? n).isSome = true ↔ n ∈ as.map Prod.fst := by
    rw [← List.mem_eraseDups, ← names, Function.param?, List.lookup_isSome_iff, List.mem_map]
    constructor
    · rintro ⟨p, found, same⟩
      exact ⟨p, found, (eq_of_beq same).symm⟩
    · rintro ⟨p, found, same⟩
      exact ⟨p, found, same ▸ beq_self_eq_true _⟩
  refine ⟨?_, given⟩
  unfold Function.assign
  by_cases known : n ∈ as.map Prod.fst
  · rw [if_pos (given.mpr known), collect_known known, ← so]
    simp only [Function.params, unplacedParams_eq_map, List.map_map]
    apply List.map_congr_left
    intro a _
    simp only [Function.comp_apply]
    split <;> rfl
  · rw [if_neg (fun h => known (given.mp h)), collect_fresh known, ← so]
    simp only [Function.params, unplacedParams_eq_map, List.map_append, List.map_singleton]

end Grammar

end DistanceField
