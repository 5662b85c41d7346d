import DistanceField.Proofs.Source.Parallel
import DistanceField.Proofs.Source.Evaluation
import DistanceField.Compile.Result

/-! Where the tokens of a text stand does not matter: not to its tree but for the places in it, nor
to what is said about it, nor to the code made of it. -/
namespace DistanceField

/-- What a token is, wherever it stands. -/
def Token.lexeme (t : Token) : Kind × Bytes := (t.kind, t.value)

namespace Parser

theorem describe_unplaced (e : Node) : e.unplaced.describe = e.describe := by
  cases e with
  | function f => cases f; rfl
  | _ => rfl

theorem function?_unplaced (e : Node) :
    e.unplaced.function? = e.function?.map Function.unplaced := by
  induction e using Node.function?.induct with
  | case1 f => rfl
  | case2 op l r i ihl ihr => simp [Node.unplaced, Node.function?, ihl, ihr, Option.map_or]
  | case3 e other no =>
    cases e with
    | missing | number | root => rfl
    | function f => exact absurd rfl (other f)
    | operator op l r i => exact absurd rfl (no op l r i)

theorem unplaced_addOperand (f g : Function) :
    (f.addOperand g).unplaced = f.unplaced.addOperand g.unplaced := by
  cases f
  simp [Function.addOperand, Function.unplaced, Function.name, Function.params, Function.operands,
    Function.span, unplacedAll_eq_map]

theorem given_unplaced (f : Function) (n : Bytes) :
    (f.unplaced.param? n).isSome = (f.param? n).isSome := by
  cases f
  rw [Bool.eq_iff_iff]
  simp [Function.param?, Function.unplaced, Function.params, unplacedParams_eq_map,
    List.lookup_isSome_iff]

theorem unplaced_assign (f : Function) (n : Bytes) (e : Node) :
    (f.assign n e).unplaced = f.unplaced.assign n e.unplaced := by
  unfold Function.assign
  rw [given_unplaced]
  cases f
  dsimp only
  split
  · simp only [Function.unplaced, Function.name, Function.params, Function.operands, Function.span,
      unplacedParams_eq_map, List.map_map]
    congr 1
    apply List.map_congr_left
    intro p _
    dsimp only [Function.comp_apply]
    split <;> rfl
  · simp [Function.unplaced, Function.name, Function.params, Function.operands, Function.span,
      unplacedParams_eq_map]

theorem operand_unplaced {e e' : Node} (same : e.unplaced = e'.unplaced) :
    (∃ g g', e = .function g ∧ e' = .function g' ∧ g.unplaced = g'.unplaced) ∨
      (∀ g, e ≠ .function g) ∧ ∀ g, e' ≠ .function g := by
  cases e with
  | function g =>
    cases e' with
    | function g' => exact .inl ⟨g, g', rfl, rfl, Node.function.inj same⟩
    | _ => cases same
  | _ =>
    cases e' with
    | function g' => cases same
    | _ => exact .inr (by simp)

/-- Trees that are equal but for their places. -/
def anywhere : Likeness where
  span _ _ := True
  node e e' := e.unplaced = e'.unplaced
  function f f' := f.unplaced = f'.unplaced
  union _ _ := trivial
  number _ := rfl
  operator left right _ := by simp only [Node.unplaced, left, right]
  single like := congrArg Node.function like
  place _ := trivial
  describe {e e'} same := by rw [← describe_unplaced e, same, describe_unplaced]
  function? {e e'} same := by
    have inner := congrArg Node.function? same
    rw [function?_unplaced, function?_unplaced] at inner
    cases found : e.function? <;> cases found' : e'.function? <;> simp_all [Option.rel_some_some]
  operand := operand_unplaced
  named _ := rfl
  name {f f'} same := by
    rw [unplaced_eq, unplaced_eq] at same
    exact (Function.mk.inj same).1
  cover same _ := by rwa [unplaced_cover, unplaced_cover]
  addOperand first second := by rw [unplaced_addOperand, unplaced_addOperand, first, second]

/-- Both runs return alike with alike tokens ahead, or both fail with the same trouble. -/
inductive Matches {α : Type} (same : α → α → Prop) :
    Except Complaint (α × List Token) → Except Complaint (α × List Token) → Prop where
  | ok {a b : α} {ts us : List Token} (alike : same a b)
      (rest : ts.map Token.lexeme = us.map Token.lexeme) : Matches same (.ok (a, ts)) (.ok (b, us))
  | error {c c' : Complaint} (trouble : c.trouble = c'.trouble) : Matches same (.error c) (.error c')

def relaid (strict : Bool) {finish finish' : Token} (ends : finish.lexeme = finish'.lexeme) :
    Bond anywhere ⟨strict, finish⟩ ⟨strict, finish'⟩ where
  tokens ts us := ts.map Token.lexeme = us.map Token.lexeme
  outcome same o p := o.warnings.map Warning.message = p.warnings.map Warning.message ∧
    Matches same o.result p.result
  kind {ts us} same := by
    cases ts <;> cases us <;> simp_all [Setting.peek, Token.lexeme]
  value {ts us} same := by
    cases ts <;> cases us <;> simp_all [Setting.peek, Token.lexeme]
  span _ := trivial
  tail {ts us} same _ := by
    rw [List.map_tail, List.map_tail, same]
  done alike rest := ⟨rfl, .ok alike rest⟩
  fail _ := ⟨rfl, .error rfl⟩
  andThen := by
    rintro α β same other ⟨ws, r⟩ ⟨ws', r'⟩ next next' ⟨messages, agree⟩ goes
    cases agree with
    | ok alike rest =>
      obtain ⟨more, last⟩ := goes alike rest
      exact ⟨by simpa [Outcome.andThen] using congrArg₂ _ messages more, last⟩
    | error trouble => exact ⟨messages, .error trouble⟩
  assign {f f' name name' e e' ts us} like value _ within rest := by
    have given : (f.param? name.value).isSome = (f'.param? name'.value).isSome := by
      rw [← given_unplaced f, like, given_unplaced, value]
    have owner : f.name = f'.name := anywhere.name like
    have whole : ((f.assign name'.value e).cover e.span).unplaced =
        ((f'.assign name'.value e').cover e'.span).unplaced := by
      rw [unplaced_cover, unplaced_cover, unplaced_assign, unplaced_assign, like, within]
    unfold Parser.assign
    dsimp only
    rw [given, value, owner]
    split
    · split
      · exact ⟨rfl, .error rfl⟩
      · exact ⟨rfl, .ok whole rest⟩
    · exact ⟨rfl, .ok whole rest⟩

end Parser

/-- How the outcomes of two texts agree: both are accepted, with the same tree but for its places and
the same warnings in words, or both are refused in the same words. -/
inductive Agree : Parsed → Parsed → Prop where
  | accepted {ws vs : List Warning} {d e : Document} (tree : d.unplaced = e.unplaced)
      (messages : ws.map Warning.message = vs.map Warning.message) : Agree ⟨ws, .ok d⟩ ⟨vs, .ok e⟩
  | refused {ws vs : List Warning} {c c' : Complaint} (trouble : c.trouble = c'.trouble)
      (messages : ws.map Warning.message = vs.map Warning.message) :
      Agree ⟨ws, .error c⟩ ⟨vs, .error c'⟩

theorem parseTokens_agree (strict : Bool) {ts us : List Token}
    (same : ts.map Token.lexeme = us.map Token.lexeme) :
    Agree (parseTokens strict ts) (parseTokens strict us) := by
  have ends : (finishOf ts).lexeme = (finishOf us).lexeme := rfl
  have blank : Parser.Bond.Documents Parser.anywhere ⟨[], .none⟩ ⟨[], .none⟩ := ⟨.nil, trivial⟩
  obtain ⟨messages, agree⟩ :=
    (Parser.relaid strict ends).documentFrom_linked (n := 8 * (ts.length + 1)) blank same
  have length : ts.length = us.length := by simpa using congrArg List.length same
  unfold parseTokens
  rw [← length]
  generalize Parser.documentFrom ⟨strict, finishOf ts⟩ _ _ ts = o at messages agree
  generalize Parser.documentFrom ⟨strict, finishOf us⟩ _ _ us = p at messages agree
  obtain ⟨ws, r⟩ := o
  obtain ⟨vs, r'⟩ := p
  cases agree with
  | error trouble => exact .refused trouble messages
  | ok like _ =>
    refine .accepted ?_ messages
    have operands := like.operands
    rw [Document.unplaced, Document.unplaced, unplacedAll_eq_map, unplacedAll_eq_map]
    congr 1
    rw [← List.forall₂_eq_eq_eq, List.forall₂_map_left_iff, List.forall₂_map_right_iff]
    exact operands

/-- An accepted text is compiled, to the code of its geometry. -/
theorem compile_accepted {strict : Bool} {source : Bytes} {ws : List Warning} {d : Document}
    (accepted : parse strict source = ⟨ws, .ok d⟩) :
    ∃ tree, d.geometry = .ok tree ∧
      compile strict source = .ok ⟨d, tree, (Shader.program tree).write, ws,
        Hash.hash (Shader.program tree).write, (Shader.program tree).helpers.length⟩ := by
  have read : ∃ ts, parseTokens strict ts = ⟨ws, .ok d⟩ := by
    unfold parse at accepted
    split at accepted
    · cases accepted
    · exact ⟨_, accepted⟩
  obtain ⟨ts, parsed⟩ := read
  obtain ⟨tree, geometry⟩ := parseTokens_geometry (congrArg Parsed.result parsed)
  refine ⟨tree, geometry, ?_⟩
  simp only [compile, accepted, Result.ofDocument, geometry]

theorem scan_lexemes_ok {source : Bytes} {ls : List (Kind × Bytes)}
    (scanned : (scan source).map (List.map Token.lexeme) = .ok ls) :
    ∃ ts, scan source = .ok ts ∧ ts.map Token.lexeme = ls := by
  cases found : scan source with
  | error c =>
    rw [found] at scanned
    cases scanned
  | ok ts =>
    rw [found] at scanned
    exact ⟨ts, rfl, Except.ok.inj scanned⟩

/-- Two texts of the same lexemes, whatever stands between them, are both accepted or both refused.
Accepted, they have the same tree but for its places, the same warnings in words and the same code;
refused, they are refused in the same words. -/
theorem layout_independent (strict : Bool) {a b : Bytes} {ls : List (Kind × Bytes)}
    (first : (scan a).map (List.map Token.lexeme) = .ok ls)
    (second : (scan b).map (List.map Token.lexeme) = .ok ls) :
    (∃ d e r r', (parse strict a).result = .ok d ∧ (parse strict b).result = .ok e ∧
      d.unplaced = e.unplaced ∧
      (parse strict a).warnings.map Warning.message = (parse strict b).warnings.map Warning.message ∧
      compile strict a = .ok r ∧ compile strict b = .ok r' ∧
      r.code = r'.code ∧ r.hash = r'.hash ∧ r.helpers = r'.helpers) ∨
    (∃ c c', (parse strict a).result = .error c ∧ (parse strict b).result = .error c' ∧
      c.fault.message = c'.fault.message ∧
      compile strict a = .error c.fault ∧ compile strict b = .error c'.fault) := by
  obtain ⟨ts, scanned, own⟩ := scan_lexemes_ok first
  obtain ⟨us, scanned', other⟩ := scan_lexemes_ok second
  have read : parse strict a = parseTokens strict ts := by simp only [parse, scanned]
  have read' : parse strict b = parseTokens strict us := by simp only [parse, scanned']
  have agree := parseTokens_agree strict (own.trans other.symm)
  rw [← read, ← read'] at agree
  generalize outcome : parse strict a = p at agree
  generalize outcome' : parse strict b = q at agree
  cases agree with
  | @accepted ws vs d e tree messages =>
    left
    obtain ⟨g, geometry, compiled⟩ := compile_accepted outcome
    obtain ⟨g', geometry', compiled'⟩ := compile_accepted outcome'
    have same : g = g' := by
      rw [← d.geometry_unplaced, tree, e.geometry_unplaced, geometry'] at geometry
      exact (Except.ok.inj geometry).symm
    subst same
    exact ⟨d, e, _, _, rfl, rfl, tree, messages, compiled, compiled', rfl, rfl, rfl⟩
  | @refused ws vs c c' trouble messages =>
    right
    refine ⟨c, c', rfl, rfl, ?_, by simp only [compile, outcome], by simp only [compile, outcome']⟩
    simp only [Complaint.fault, Fault.message, trouble]

/-- A list with a repeated name, without blanks and with line ends of two kinds. -/
def narrow : Bytes := "a(x=1,x=2)"

def wide : Bytes := "a\r\n( x = 1 ,\tx = 2 )\n"

def spread : List (Kind × Bytes) :=
  [(.identifier, "a"), (.lparen, "("), (.identifier, "x"), (.assign, "="), (.number, "1"),
    (.comma, ","), (.identifier, "x"), (.assign, "="), (.number, "2"), (.rparen, ")"), (.eof, [])]

theorem narrow_wide_alike :
    (scan narrow).map (List.map Token.lexeme) = .ok spread ∧
    (scan wide).map (List.map Token.lexeme) = .ok spread ∧
    ∃ r r', compile false narrow = .ok r ∧ compile false wide = .ok r' ∧
      r.code = r'.code ∧ r.hash = r'.hash ∧ r.helpers = r'.helpers := by
  have first : (scan narrow).map (List.map Token.lexeme) = .ok spread := by decide +kernel
  have second : (scan wide).map (List.map Token.lexeme) = .ok spread := by decide +kernel
  refine ⟨first, second, ?_⟩
  rcases layout_independent false first second with accepted | refused
  · obtain ⟨d, e, r, r', -, -, -, -, compiled, compiled', same⟩ := accepted
    exact ⟨r, r', compiled, compiled', same⟩
  · obtain ⟨c, c', refused, -⟩ := refused
    have fine : (parse false narrow).result.isOk = true := by decide +kernel
    rw [refused] at fine
    cases fine

end DistanceField
