import DistanceField.Proofs.Source.Soundness
import DistanceField.Solid.Geometry

/-! Every accepted document has the geometry that its tokens show, wherever they stand. -/
namespace DistanceField

inductive Node.Computed : Node → Prop where
  | number (v : Float) (span : Interval) : Computed (.number v span)
  | operator {op : Kind} {l r : Node} {span : Interval}
      (four : op ∈ [Kind.plus, .minus, .star, .slash]) (left : Computed l) (right : Computed r) :
      Computed (.operator op l r span)

namespace Node.Computed

theorem evaluates {e : Node} (computed : e.Computed) : ∃ v, e.evaluate = .ok v := by
  induction computed with
  | number v span => exact ⟨v, rfl⟩
  | @operator op l r span four _ _ ihl ihr =>
    obtain ⟨a, left⟩ := ihl
    obtain ⟨b, right⟩ := ihr
    simp only [Node.evaluate, left, right]
    fin_cases four <;> exact ⟨_, rfl⟩

theorem placed {e : Node} (computed : e.unplaced.Computed) : e.Computed := by
  generalize same : e.unplaced = u at computed
  induction computed generalizing e with
  | number v span =>
    cases e with
    | number => exact .number ..
    | _ => cases same
  | operator four _ _ ihl ihr =>
    cases e with
    | operator op l r span =>
      cases same
      exact .operator four (ihl rfl) (ihr rfl)
    | _ => cases same

end Node.Computed

def Document.unplaced (d : Document) : Document := ⟨unplacedAll d.operands, .none⟩

theorem evaluate_unplaced (e : Node) : e.unplaced.evaluate = e.evaluate := by
  induction e using Node.evaluate.induct with
  | case1 v span => rfl
  | case2 op l r span ihl ihr => simp only [Node.unplaced, Node.evaluate, ihl, ihr]
  | case3 e number operator =>
    cases e with
    | number v span => exact absurd rfl (number v span)
    | operator op l r span => exact absurd rfl (operator op l r span)
    | function f => cases f; rfl
    | missing | root => rfl

theorem evaluateParams_unplaced (ps : List (Bytes × Node)) :
    evaluateParams (unplacedParams ps) = evaluateParams ps := by
  induction ps with
  | nil => rfl
  | cons p ps ih => simp only [unplacedParams, evaluateParams, evaluate_unplaced, ih]

mutual

theorem geometry_unplaced : (f : Function) → f.unplaced.geometry = f.geometry
  | .mk name params operands span => by
    simp only [Function.unplaced, Function.geometry, evaluateParams_unplaced,
      geometries_unplaced operands]

theorem geometries_unplaced :
    (fs : List Function) → Function.geometries (unplacedAll fs) = Function.geometries fs
  | [] => rfl
  | f :: fs => by
    simp only [unplacedAll, Function.geometries, geometry_unplaced f, geometries_unplaced fs]

end

theorem Document.geometry_unplaced (d : Document) : d.unplaced.geometry = d.geometry := by
  simp only [Document.geometry, Document.unplaced, geometries_unplaced]

namespace Grammar

inductive Call : List Token → Bytes → List (Bytes × Node) → Prop where
  | bare {name : Token} (named : name.kind = .identifier) : Call [name] name.value []
  | called {name l r : Token} {ts : List Token} {as : List (Bytes × Node)}
      (named : name.kind = .identifier) (opens : l.kind = .lparen) (list : Assigns ts as)
      (closes : r.kind = .rparen) : Call (name :: l :: (ts ++ [r])) name.value as

/-- The values of parameters that are written so: each name once, by first appearance, with the value
of the last expression that is written for it. -/
structure Values (as : List (Bytes × Node)) (vs : List (Bytes × Float)) : Prop where
  names : vs.map Prod.fst = (as.map Prod.fst).eraseDups
  last : ∀ before n e behind, as = before ++ (n, e) :: behind → n ∉ behind.map Prod.fst →
    ∃ v, e.evaluate = .ok v ∧ vs.lookup n = some v

/-- The solids that tokens show, in the order of the text. -/
inductive Drawn : Part → List Token → List (Geometry Float) → Prop where
  | plain {ts : List Token} {name : Bytes} {as : List (Bytes × Node)} {vs : List (Bytes × Float)}
      (call : Call ts name as) (values : Values as vs) :
      Drawn .function ts [.mk name (.ofName name) vs []]
  | block {ts us : List Token} {l r : Token} {name : Bytes} {as : List (Bytes × Node)}
      {vs : List (Bytes × Float)} {gs : List (Geometry Float)} (call : Call ts name as)
      (values : Values as vs) (opens : l.kind = .lbrace) (inner : Drawn .children us gs)
      (closes : r.kind = .rbrace) :
      Drawn .function (ts ++ l :: (us ++ [r])) [.mk name (.ofName name) vs gs]
  | child {ts : List Token} {gs : List (Geometry Float)} (function : Drawn .function ts gs) :
      Drawn .child ts gs
  | group {ts : List Token} {l r : Token} {gs : List (Geometry Float)} (opens : l.kind = .lparen)
      (inner : Drawn .child ts gs) (closes : r.kind = .rparen) : Drawn .child (l :: (ts ++ [r])) gs
  | none : Drawn .children [] []
  | more {ts us : List Token} {gs hs : List (Geometry Float)} (first : Drawn .child ts gs)
      (rest : Drawn .children us hs) : Drawn .children (ts ++ us) (gs ++ hs)

inductive Drawing : List Token → List (Geometry Float) → Prop where
  | last {ts : List Token} {gs : List (Geometry Float)} (function : Drawn .function ts gs) :
      Drawing ts gs
  | more {ts us : List Token} {gs hs : List (Geometry Float)} (function : Drawn .function ts gs)
      (rest : Drawing us hs) : Drawing (ts ++ us) (gs ++ hs)

theorem Formula.computed {level : Level} {ts : List Token} {e : Node} (value : Formula level ts e) :
    e.Computed := by
  induction value with
  | number | positive | negative => exact .number ..
  | group _ _ _ ih | factor _ ih | term _ ih => exact ih
  | product _ sign _ ihl ihr | sum _ sign _ ihl ihr =>
    exact .operator (by rcases sign with is | is <;> simp [is]) ihl ihr

theorem Assigns.computed {ts : List Token} {as : List (Bytes × Node)} (list : Assigns ts as) :
    ∀ a ∈ as, a.2.Computed := by
  induction list with
  | none => exact List.forall_mem_nil _
  | last assign =>
    cases assign with
    | mk _ _ value => simpa using value.computed
  | more assign _ _ ih =>
    cases assign with
    | mk _ _ value => exact List.forall_mem_cons.mpr ⟨value.computed, ih⟩

theorem evaluateParams_ok {ps : List (Bytes × Node)} (all : ∀ p ∈ ps, ∃ v, p.2.evaluate = .ok v) :
    ∃ vs, evaluateParams ps = .ok vs := by
  induction ps with
  | nil => exact ⟨[], rfl⟩
  | cons p ps ih =>
    obtain ⟨⟨v, first⟩, rest⟩ := List.forall_mem_cons.mp all
    obtain ⟨vs, others⟩ := ih rest
    simp only [evaluateParams, first, others]
    exact ⟨_, rfl⟩

theorem bind_ok {α β : Type} {x : Except Malformed α} {f : α → Except Malformed β} {b : β}
    (result : x >>= f = .ok b) : ∃ a, x = .ok a ∧ f a = .ok b := by
  cases x with
  | error => cases result
  | ok a => exact ⟨a, rfl, result⟩

theorem evaluateParams_each {ps : List (Bytes × Node)} {vs : List (Bytes × Float)}
    (evaluated : evaluateParams ps = .ok vs) :
    List.Forall₂ (fun p v => v.1 = p.1 ∧ p.2.evaluate = .ok v.2) ps vs := by
  induction ps generalizing vs with
  | nil =>
    cases evaluated
    exact .nil
  | cons p ps ih =>
    obtain ⟨v, first, more⟩ := bind_ok evaluated
    obtain ⟨vs, rest, same⟩ := bind_ok more
    cases same
    exact .cons ⟨rfl, first⟩ (ih rest)

theorem evaluateParams_names {ps : List (Bytes × Node)} {vs : List (Bytes × Float)}
    (evaluated : evaluateParams ps = .ok vs) : vs.map Prod.fst = ps.map Prod.fst := by
  have each := evaluateParams_each evaluated
  clear evaluated
  induction each with
  | nil => rfl
  | cons first _ ih => simp [first.1, ih]

theorem evaluateParams_lookup {ps : List (Bytes × Node)} {vs : List (Bytes × Float)}
    (evaluated : evaluateParams ps = .ok vs) {n : Bytes} {e : Node} (found : ps.lookup n = some e) :
    ∃ v, e.evaluate = .ok v ∧ vs.lookup n = some v := by
  have each := evaluateParams_each evaluated
  clear evaluated
  induction each with
  | nil => cases found
  | @cons p v ps vs first _ ih =>
    rw [List.lookup_cons] at found ⊢
    rw [first.1]
    split at found
    · cases found
      exact ⟨v.2, first.2, rfl⟩
    · exact ih found

theorem lookup_collect {as : List (Bytes × Node)} {n : Bytes} {e : Node}
    (last : as.reverse.lookup n = some e) : (collect as).lookup n = some e := by
  have known : n ∈ (as.map Prod.fst).eraseDups := by
    rw [List.mem_eraseDups, List.mem_map]
    obtain ⟨before, behind, split, -⟩ := List.lookup_eq_some_iff.mp last
    exact ⟨(n, e), List.mem_reverse.mp (split ▸ by simp), rfl⟩
  unfold collect
  generalize (as.map Prod.fst).eraseDups = names at known
  induction names with
  | nil => cases known
  | cons m ms ih =>
    by_cases here : n = m
    · simp [← here, last]
    · have other : (n == m) = false := by simpa using here
      have later := ih ((List.mem_cons.mp known).resolve_left here)
      rw [List.filterMap_cons]
      split
      · exact later
      · next p given =>
        obtain ⟨w, -, rfl⟩ := Option.map_eq_some_iff.mp given
        rwa [List.lookup_cons, other]

theorem values_collect {as : List (Bytes × Node)} {vs : List (Bytes × Float)}
    (evaluated : evaluateParams (collect as) = .ok vs) : Values as vs := by
  refine ⟨(evaluateParams_names evaluated).trans (names_collect as), ?_⟩
  rintro before n e behind rfl fresh
  apply evaluateParams_lookup evaluated
  apply lookup_collect
  have none : behind.reverse.lookup n = none := by
    rw [List.lookup_eq_none_iff]
    intro p found
    rw [bne_iff_ne]
    rintro rfl
    exact fresh (List.mem_map_of_mem (List.mem_reverse.mp found))
  simp [List.lookup_append, none]

theorem Head.valued {strict : Bool} {next : Kind} {ts : List Token} {name : Bytes}
    {ps : List (Bytes × Node)} (head : Head strict next ts name ps) :
    ∃ as vs, Call ts name as ∧ Values as vs ∧ evaluateParams ps = .ok vs := by
  cases head with
  | bare named _ => exact ⟨[], [], .bare named, values_collect rfl, rfl⟩
  | @called _ _ _ _ as named opens list closes _ =>
    obtain ⟨vs, evaluated⟩ := evaluateParams_ok fun p found =>
      (list.computed p (mem_of_mem_collect found)).evaluates
    exact ⟨as, vs, .called named opens list closes, values_collect evaluated, evaluated⟩

theorem geometries_cons {f : Function} {fs : List Function} {gs : List (Geometry Float)}
    (drawn : Function.geometries (f :: fs) = .ok gs) :
    ∃ g rest, f.geometry = .ok g ∧ Function.geometries fs = .ok rest ∧ gs = g :: rest := by
  obtain ⟨g, first, more⟩ := bind_ok drawn
  obtain ⟨rest, others, same⟩ := bind_ok more
  cases same
  exact ⟨g, rest, first, others, rfl⟩

theorem geometries_append {fs gs : List Function} {as bs : List (Geometry Float)}
    (first : Function.geometries fs = .ok as) (second : Function.geometries gs = .ok bs) :
    Function.geometries (fs ++ gs) = .ok (as ++ bs) := by
  induction fs generalizing as with
  | nil =>
    cases first
    exact second
  | cons f fs ih =>
    obtain ⟨a, rest, one, more, rfl⟩ := geometries_cons first
    simp only [List.cons_append, Function.geometries, one, ih more]
    rfl

theorem Solid.drawn {strict : Bool} {part : Part} {next : Kind} {ts : List Token}
    {fs : List Function} (solid : Solid strict part next ts fs) :
    ∃ gs, Function.geometries fs = .ok gs ∧ Drawn part ts gs := by
  induction solid with
  | plain head =>
    obtain ⟨as, vs, call, values, params⟩ := head.valued
    simp only [Function.geometries, Function.geometry, params]
    exact ⟨_, rfl, .plain call values⟩
  | block head opens _ closes ih =>
    obtain ⟨as, vs, call, values, params⟩ := head.valued
    obtain ⟨gs, inner, drawn⟩ := ih
    simp only [Function.geometries, Function.geometry, params, inner]
    exact ⟨_, rfl, .block call values opens drawn closes⟩
  | child _ ih =>
    obtain ⟨gs, inner, drawn⟩ := ih
    exact ⟨gs, inner, .child drawn⟩
  | group opens _ closes ih =>
    obtain ⟨gs, inner, drawn⟩ := ih
    exact ⟨gs, inner, .group opens drawn closes⟩
  | none => exact ⟨[], rfl, .none⟩
  | more _ _ ihf ihr =>
    obtain ⟨as, first, front⟩ := ihf
    obtain ⟨bs, rest, back⟩ := ihr
    exact ⟨as ++ bs, geometries_append first rest, .more front back⟩

theorem Text.drawing {strict : Bool} {ts : List Token} {fs : List Function}
    (text : Text strict ts fs) : ∃ gs, Function.geometries fs = .ok gs ∧ Drawing ts gs := by
  induction text with
  | last function =>
    obtain ⟨gs, only, drawn⟩ := function.drawn
    exact ⟨gs, only, .last drawn⟩
  | more function _ ih =>
    obtain ⟨as, first, front⟩ := function.drawn
    obtain ⟨bs, rest, back⟩ := ih
    exact ⟨as ++ bs, geometries_append first rest, .more front back⟩

end Grammar

/-- The geometry of an accepted document is what its tokens show, up to the first end of input. -/
theorem parseTokens_drawing {strict : Bool} {ts : List Token} {d : Document}
    (accepted : (parseTokens strict ts).result = .ok d) :
    ∃ used rest gs, ts = used ++ rest ∧ (∀ t ∈ rest.head?, t.kind = .eof) ∧ Grammar.Drawing used gs ∧
      Function.geometries d.operands = .ok gs := by
  obtain ⟨rest, parsed⟩ := parseTokens_ok accepted
  obtain ⟨used, fs, whole, last, text, all⟩ := Parser.documentFrom_sound rfl parsed
  obtain ⟨gs, geometries, drawing⟩ := text.drawing
  refine ⟨used, rest, gs, whole, ?_, drawing, ?_⟩
  · intro t first
    obtain ⟨rest, rfl⟩ := List.head?_eq_some_iff.mp first
    exact last
  · rw [← geometries_unplaced, all]
    exact geometries

theorem Document.geometry_eq {d : Document} {gs : List (Geometry Float)}
    (inner : Function.geometries d.operands = .ok gs) :
    d.geometry = .ok (.mk Shape.union.name .union [] gs) := by
  simp only [Document.geometry, inner]
  rfl

theorem parseTokens_geometry {strict : Bool} {ts : List Token} {d : Document}
    (accepted : (parseTokens strict ts).result = .ok d) : ∃ tree, d.geometry = .ok tree := by
  obtain ⟨-, -, gs, -, -, -, inner⟩ := parseTokens_drawing accepted
  exact ⟨_, Document.geometry_eq inner⟩

end DistanceField
