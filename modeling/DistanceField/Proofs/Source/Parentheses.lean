import DistanceField.Proofs.Source.RoundTrip
import DistanceField.Proofs.Source.Scanning

/-! No spelling of an expression has fewer parentheses than the formatted one. -/
namespace DistanceField

open Grammar Lexer

def openings (ts : List Token) : Nat := ts.countP (·.kind == .lparen)

theorem openings_append (ts us : List Token) : openings (ts ++ us) = openings ts + openings us :=
  List.countP_append

theorem openings_cons (t : Token) (ts : List Token) :
    openings (t :: ts) = openings ts + (t.kind == .lparen).toNat := by
  cases is : t.kind == .lparen <;> simp [openings, is]

/-- The step that reads the value of a parameter takes the tokens `ts` in front of `rest`, and gives
the tree `e`, places apart. -/
def Parser.ReadsValue (s : Setting) (n : Nat) (ts rest : List Token) (e : Node) : Prop :=
  ∃ e', (expression s n (ts ++ rest)).result = .ok (e', rest) ∧ e'.unplaced = e.unplaced

section Texts

theorem count_word {w : Bytes} (word : Word w) : w.count 40 = 0 :=
  List.count_eq_zero.mpr fun found => absurd (word.2 40 found) (by decide)

theorem count_digits {ds : Bytes} (all : Read.AllDigits ds) : ds.count 40 = 0 :=
  List.count_eq_zero.mpr fun found => absurd (all 40 found) (by decide)

theorem count_numeral {w : Bytes} (numeral : Numeral w) : w.count 40 = 0 := by
  obtain ⟨whole, part, all, more, -, rfl⟩ := numeral
  unfold Read.spelled
  split
  · exact count_digits all
  · rw [List.count_append, List.count_cons, count_digits all, count_digits more]
    rfl

theorem count_lexeme {k : Kind} {w : Bytes} (written : Written k w) :
    w.count 40 = (k == .lparen).toNat := by
  obtain ⟨b, v, rfl⟩ := written_filled written
  rcases written_cases written with ⟨-, rfl, word⟩ | ⟨-, rfl, numeral⟩ | ⟨mark, rfl⟩
  · exact count_word word
  · exact count_numeral numeral
  · have each : ∀ p ∈ marks, [p.1].count 40 = (p.2 == .lparen).toNat := by decide
    exact each (b, k) (mem_marks (mark_of_classify mark).1)

theorem count_parens {pos : Nat} {text : Bytes} {ts : List Token} (lexes : Lexes pos text ts) :
    openings ts = text.count 40 := by
  induction lexes with
  | finish => rfl
  | @blank pos b rest ts blank _ ih =>
    have other : b ≠ 40 := by
      rintro rfl
      cases blank
    rw [ih, List.count_cons_of_ne other]
  | token _ found _ ih =>
    rw [openings_cons, ih, ← List.cons_append, List.count_append, count_lexeme (lexeme_written found),
      Nat.add_comm]

end Texts

namespace Formatter

theorem count_signed (negative : Bool) {w : Bytes} (numeral : Numeral w) :
    (Decimal.signed negative w).count 40 = 0 := by
  cases negative with
  | false => exact count_numeral numeral
  | true => exact (List.count_cons_of_ne (by decide)).trans (count_numeral numeral)

theorem count_number (v : Float) : (number v).count 40 = 0 := by
  unfold number
  split
  · rfl
  · exact count_signed _ (numeral_of_digits allDigits_overflow overflow_ne_nil)
  · next finite => exact count_signed _ (numeral_positional finite)

theorem count_parensIf (wrap : Bool) (text : Bytes) :
    (parensIf wrap text).count 40 = text.count 40 + wrap.toNat := by
  cases wrap with
  | false => rfl
  | true =>
    have text : parens text = 40 :: (text ++ [41]) := rfl
    rw [parensIf, if_pos rfl, text, List.count_cons_self, List.count_append]
    rfl

theorem count_operator {op : Kind} {l r : Node} {span : Interval} (plain : op.name.count 40 = 0) :
    (expr (.operator op l r span)).count 40 =
      (expr l).count 40 + (looser l (precedence op)).toNat +
        ((expr r).count 40 + (notTighter r (precedence op)).toNat) := by
  have blank : (" " : Bytes).count 40 = 0 := rfl
  rw [expr]
  simp only [List.count_append, count_parensIf, plain, blank, Nat.add_zero]

/-- Whether an expression needs parentheses where a level is asked for. -/
def wrapped (level : Level) (e : Node) : Bool := decide (rank (levelOf e) < rank level)

theorem wrapped_le {loose tight : Level} (le : rank loose ≤ rank tight) (e : Node) :
    (wrapped loose e).toNat ≤ (wrapped tight e).toNat := by
  refine Bool.toNat_le_toNat fun needed => ?_
  exact decide_eq_true ((of_decide_eq_true needed).trans_le le)

theorem count_binds {level : Level} {op : Kind} {l r : Node} {span : Interval}
    (binds : Parser.Binds level op) :
    (expr (.operator op l r span)).count 40 =
      (expr l).count 40 + (wrapped level l).toNat +
        ((expr r).count 40 + (wrapped (Parser.tighter level) r).toNat) := by
  have plain : op.name.count 40 = 0 := by
    cases level with
    | sum | product => rcases binds with rfl | rfl <;> rfl
    | atom => cases binds
  obtain ⟨prec, next, low⟩ := rank_binds binds
  rw [count_operator plain, prec, looser_eq l (by omega), notTighter_eq r low, wrapped, wrapped, next]

theorem fewest_binds {level : Level} {ts us : List Token} {op : Token} {l r : Node}
    (binds : Parser.Binds level op.kind)
    (left : (expr l).count 40 + (wrapped level l).toNat ≤ openings ts)
    (right : (expr r).count 40 + (wrapped (Parser.tighter level) r).toNat ≤ openings us) :
    (expr (.operator op.kind l r .none)).count 40 +
      (wrapped level (.operator op.kind l r .none)).toNat ≤ openings (ts ++ op :: us) := by
  have bare : wrapped level (.operator op.kind l r .none) = false := by
    cases level with
    | sum | product => rcases binds with is | is <;> rw [is] <;> rfl
    | atom => cases binds
  rw [count_binds binds, bare, Bool.toNat_false, Nat.add_zero, openings_append, openings_cons]
  exact Nat.add_le_add left (Nat.le_add_right_of_le right)

/-- However an expression is spelled at a level, there are the parentheses of its format, and those
around it when it binds too loosely for the level. -/
theorem fewest_of_formula {level : Level} {ts : List Token} {e : Node} (value : Formula level ts e) :
    (expr e).count 40 + (wrapped level e).toNat ≤ openings ts := by
  induction value with
  | number | positive | negative =>
    rw [expr, count_number]
    exact Nat.zero_le _
  | @group l r ts e opens _ closes ih =>
    -- The pair is the one that the level may ask for; around an atom it is needless.
    have pair : openings (l :: (ts ++ [r])) = openings ts + 1 := by
      rw [openings_cons, openings_append, opens]
      simp [openings, closes]
    have one := Bool.toNat_le (wrapped .atom e)
    omega
  | @factor ts e _ ih | @term ts e _ ih =>
    refine le_trans ?_ ih
    exact Nat.add_le_add_left (wrapped_le (by decide) e) _
  | product _ sign _ ihl ihr => exact @fewest_binds .product _ _ _ _ _ sign ihl ihr
  | sum _ sign _ ihl ihr => exact @fewest_binds .sum _ _ _ _ _ sign ihl ihr

theorem expr_unplaced {e : Node} (arithmetic : Arithmetic e) : expr e.unplaced = expr e := by
  have same (n : Node) : precedence? n.unplaced = precedence? n := by cases n <;> rfl
  induction arithmetic with
  | number => rfl
  | operator _ _ _ ihl ihr => simp only [Node.unplaced, expr, looser, notTighter, same, ihl, ihr]

end Formatter

namespace Parser

/-- Arithmetic is read as a value wherever a parameter may end. -/
theorem readsValue_of_formula {s : Setting} {n : Nat} {ts rest : List Token} {sep : Token} {e : Node}
    (value : Formula .sum ts e.unplaced) (fuel : 8 * ts.length ≤ n)
    (ends : sep.kind = .comma ∨ sep.kind = .rparen) : ReadsValue s n ts (sep :: rest) e := by
  have stops (level : Level) : ¬ Binds level sep.kind := by
    intro binds
    rcases ends with is | is
    · exact binds.ne (by decide) is
    · exact binds.ne (by decide) is
  obtain ⟨e', same, run⟩ := (formula_leads value).run (stops _) (stops _)
  refine ⟨e', ?_, same.tree⟩
  exact (run.replays n (sep :: rest) (by simp only [Task.cost]; omega) rfl).result

theorem function?_of_arithmetic {e e' : Node} (arithmetic : Arithmetic e)
    (same : e'.unplaced = e.unplaced) : e'.function? = none := by
  induction arithmetic generalizing e' with
  | number =>
    cases e' with
    | number => rfl
    | _ => cases same
  | operator _ _ _ ihl ihr =>
    cases e' with
    | operator op l r span =>
      simp only [Node.unplaced, Node.operator.injEq] at same
      rw [Node.function?, ihl same.2.1, ihr same.2.2.1]
      rfl
    | _ => cases same

theorem formula_of_readsValue {s : Setting} {n : Nat} {ts rest : List Token} {e : Node}
    (ends : s.finish.kind = .eof) (arithmetic : Arithmetic e) (reads : ReadsValue s n ts rest e) :
    Formula .sum ts e.unplaced := by
  obtain ⟨e', read, same⟩ := reads
  obtain ⟨used, split, run⟩ := traced_all ends n (.value .sum) read
  obtain rfl := List.append_cancel_right split
  rw [← same]
  exact run.derives.value (function?_of_arithmetic arithmetic same)

end Parser

theorem parse_parameter {e : Node} {f x : Bytes} (arithmetic : Arithmetic e) (named : Word f)
    (given : Word x) :
    ∃ d, (parse true (f ++ Formatter.parens (x ++ "=" ++ e.format))).result = .ok d ∧
      d.operands.map Function.unplaced = [.mk f [(x, e.unplaced)] [] .none] := by
  have writable : Writable (.mk f [(x, e)] [] .none) := by
    refine .mk named ?_ (List.nodup_singleton x) (List.forall_mem_nil _)
    rw [List.forall_mem_singleton]
    exact ⟨given, arithmetic⟩
  obtain ⟨us, pos, stands, scanned⟩ := (Formatter.function_spelled writable 0 0).scan
  have text : Text true us [.mk f [(x, e.unplaced)] [] .none] := .last (stands .eof (by decide))
  have ends : (Token.finish pos).kind = .eof := rfl
  obtain ⟨d, read, same, -⟩ := parseTokens_complete text ends
  refine ⟨d, ?_, by rw [← unplacedAll_eq_map, same]⟩
  rw [Formatter.function, List.isEmpty_nil, if_pos rfl, List.append_nil] at scanned
  change scan (f ++ Formatter.parens (x ++ "=" ++ e.format)) = _ at scanned
  rw [parse, scanned, read]

/-- A formatted expression has as many opening parentheses as its tokens, which are read as it
wherever a parameter may end; and no tokens that are read as it have fewer. -/
theorem format_fewest_parens {e : Node} (arithmetic : Arithmetic e) :
    (∃ ts pos, scan e.format = .ok (ts ++ [Token.finish pos]) ∧ openings ts = e.format.count 40 ∧
      ∀ (s : Parser.Setting) (n : Nat) (sep : Token) (rest : List Token), 8 * ts.length ≤ n →
        sep.kind = .comma ∨ sep.kind = .rparen → Parser.ReadsValue s n ts (sep :: rest) e) ∧
    (∀ f x, Word f → Word x →
      ∃ d, (parse true (f ++ Formatter.parens (x ++ "=" ++ e.format))).result = .ok d ∧
        d.operands.map Function.unplaced = [.mk f [(x, e.unplaced)] [] .none]) ∧
    ∀ (strict : Bool) (pos : Int) (n : Nat) (ts rest : List Token),
      Parser.ReadsValue ⟨strict, Token.finish pos⟩ n ts rest e → e.format.count 40 ≤ openings ts := by
  refine ⟨?_, fun f x named given => parse_parameter arithmetic named given, ?_⟩
  · obtain ⟨ts, pos, value, scanned⟩ := (Formatter.expr_spelled arithmetic).scan
    refine ⟨ts, pos, scanned, ?_, ?_⟩
    · have count := count_parens (lexes_of_scan scanned)
      rwa [openings_append] at count
    · intro s n sep rest fuel ends
      have loose : Formula .sum ts e.unplaced :=
        Formatter.loosen (by cases Formatter.levelOf e <;> decide) value
      exact Parser.readsValue_of_formula loose fuel ends
  · intro strict pos n ts rest reads
    have value := Parser.formula_of_readsValue rfl arithmetic reads
    have fewest := Formatter.fewest_of_formula value
    rw [Formatter.expr_unplaced arithmetic] at fewest
    exact le_of_add_le_left fewest

/-- An expression that needs parentheses on the left of one operator and on the right of another. -/
def lopsided : Node :=
  .operator .slash (.operator .minus (.number 1 .none)
    (.operator .minus (.number 2 .none) (.number 3 .none) .none) .none) (.number (-4) .none) .none

theorem format_fewest_parens_lopsided :
    Arithmetic lopsided ∧ lopsided.format = "(1 - (2 - 3)) / -4" ∧
      ∀ (strict : Bool) (pos : Int) (n : Nat) (ts rest : List Token),
        Parser.ReadsValue ⟨strict, Token.finish pos⟩ n ts rest lopsided → 2 ≤ openings ts := by
  have number {v : Float} (text : Formatter.number v ≠ [48]) : Arithmetic (.number v .none) := by
    refine .number fun nan => text ?_
    rw [Formatter.number, nan]
  have arithmetic : Arithmetic lopsided :=
    .operator (by simp) (.operator (by simp) (number (by decide +kernel)) (.operator (by simp)
      (number (by decide +kernel)) (number (by decide +kernel)))) (number (by decide +kernel))
  have text : lopsided.format = "(1 - (2 - 3)) / -4" := by decide +kernel
  refine ⟨arithmetic, text, fun strict pos n ts rest reads => ?_⟩
  have fewest := (format_fewest_parens arithmetic).2.2 strict pos n ts rest reads
  rw [text] at fewest
  exact fewest

end DistanceField
