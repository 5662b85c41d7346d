import DistanceField.Proofs.Source.Completeness
import DistanceField.Proofs.Source.Lexing
import DistanceField.Source.Formatter

/-! Formatted trees are read back, without a warning and whatever the indent. -/
namespace DistanceField

open Grammar Lexer

/-- Arithmetic as texts have it: the four operators over numbers. -/
inductive Arithmetic : Node → Prop where
  | number {v : Float} {span : Interval} (is : Double.view v ≠ .nan) : Arithmetic (.number v span)
  | operator {op : Kind} {l r : Node} {span : Interval}
      (is : op = .plus ∨ op = .minus ∨ op = .star ∨ op = .slash) (left : Arithmetic l)
      (right : Arithmetic r) : Arithmetic (.operator op l r span)

/-- A function as texts have it: names are words, and each parameter stands once. -/
inductive Writable : Function → Prop where
  | mk {name : Bytes} {params : List (Bytes × Node)} {operands : List Function} {span : Interval}
      (named : Word name) (given : ∀ p ∈ params, Word p.1 ∧ Arithmetic p.2)
      (distinct : (params.map Prod.fst).Nodup) (inner : ∀ f ∈ operands, Writable f) :
      Writable (.mk name params operands span)

theorem Arithmetic.placed {e e' : Node} (arithmetic : Arithmetic e) (same : e'.unplaced = e) :
    Arithmetic e' := by
  induction arithmetic generalizing e' with
  | number is =>
    cases e' with
    | number v span =>
      cases same
      exact .number is
    | _ => cases same
  | operator is _ _ ihl ihr =>
    cases e' with
    | operator op l r span =>
      cases same
      exact .operator is (ihl rfl) (ihr rfl)
    | _ => cases same

theorem Writable.placed {f f' : Function} (writable : Writable f) (same : f'.unplaced = f) :
    Writable f' := by
  induction writable generalizing f' with
  | mk named given distinct _ ih =>
    obtain ⟨name, params, operands, span⟩ := f'
    cases same
    refine .mk named ?_ ?_ ?_
    · intro p found
      have unplaced := given (p.1, p.2.unplaced) (by
        rw [unplacedParams_eq_map]
        exact List.mem_map_of_mem found)
      exact ⟨unplaced.1, unplaced.2.placed rfl⟩
    · simpa [unplacedParams_eq_map, Function.comp_def] using distinct
    · intro g found
      exact ih g.unplaced (by rw [unplacedAll_eq_map]; exact List.mem_map_of_mem found) rfl

namespace Grammar

theorem Formula.arithmetic {level : Level} {ts : List Token} {e : Node} (value : Formula level ts e)
    (lexemes : ∀ t ∈ ts, Lexeme t) : Arithmetic e := by
  have read {t : Token} (lexeme : Lexeme t) (digits : t.kind = .number) :
      Double.view (Read.double t.value).value ≠ .nan := by
    obtain ⟨whole, part, all, more, some, same⟩ := lexeme.counted digits
    rw [same]
    exact Read.double_ne_nan all more some
  induction value with
  | number digits => exact .number (read (lexemes _ (by simp)) digits)
  | positive _ digits => exact .number (read (lexemes _ (by simp)) digits)
  | @negative s t _ digits =>
    refine .number ?_
    have proper := read (lexemes t (by simp)) digits
    rw [Double.view_neg]
    intro nan
    cases of : Double.view (Read.double t.value).value with
    | nan => exact proper of
    | infinite negative | finite negative m e =>
      rw [of] at nan
      cases nan
  | group _ _ _ ih => exact ih fun t found => lexemes t (by simp [found])
  | factor _ ih | term _ ih => exact ih lexemes
  | product _ sign _ ihl ihr =>
    exact .operator (sign.elim (.inr ∘ .inr ∘ .inl) (.inr ∘ .inr ∘ .inr))
      (ihl fun t found => lexemes t (by simp [found]))
      (ihr fun t found => lexemes t (by simp [found]))
  | sum _ sign _ ihl ihr =>
    exact .operator (sign.elim .inl (.inr ∘ .inl))
      (ihl fun t found => lexemes t (by simp [found]))
      (ihr fun t found => lexemes t (by simp [found]))

theorem Assign.writable {ts : List Token} {a : Bytes × Node} (assign : Assign ts a)
    (lexemes : ∀ t ∈ ts, Lexeme t) : Word a.1 ∧ Arithmetic a.2 := by
  cases assign with
  | mk named _ value =>
    exact ⟨(lexemes _ (by simp)).named named, value.arithmetic fun t found => lexemes t (by simp [found])⟩

theorem Assigns.writable {ts : List Token} {as : List (Bytes × Node)} (list : Assigns ts as)
    (lexemes : ∀ t ∈ ts, Lexeme t) : ∀ a ∈ as, Word a.1 ∧ Arithmetic a.2 := by
  induction list with
  | none => nofun
  | last assign => simpa using assign.writable lexemes
  | more assign _ _ ih =>
    refine List.forall_mem_cons.mpr ⟨assign.writable fun t found => lexemes t (by simp [found]), ?_⟩
    exact ih fun t found => lexemes t (by simp [found])

theorem Head.writable {strict : Bool} {next : Kind} {ts : List Token} {name : Bytes}
    {ps : List (Bytes × Node)} (head : Head strict next ts name ps)
    (lexemes : ∀ t ∈ ts, Lexeme t) :
    Word name ∧ (∀ p ∈ ps, Word p.1 ∧ Arithmetic p.2) ∧ (ps.map Prod.fst).Nodup := by
  cases head with
  | bare named _ => exact ⟨(lexemes _ (by simp)).named named, nofun, List.nodup_nil⟩
  | called named _ list _ _ =>
    refine ⟨(lexemes _ (by simp)).named named, ?_, ?_⟩
    · intro p found
      exact list.writable (fun t found => lexemes t (by simp [found])) p (mem_of_mem_collect found)
    · exact nodup_collect _

theorem Solid.writable {strict : Bool} {part : Part} {next : Kind} {ts : List Token}
    {fs : List Function} (solid : Solid strict part next ts fs) (lexemes : ∀ t ∈ ts, Lexeme t) :
    ∀ f ∈ fs, Writable f := by
  induction solid with
  | plain head =>
    obtain ⟨named, given, distinct⟩ := head.writable lexemes
    simpa using Writable.mk named given distinct (List.forall_mem_nil _)
  | block head _ _ _ ih =>
    obtain ⟨named, given, distinct⟩ := head.writable fun t found => lexemes t (by simp [found])
    have inner := ih fun t found => lexemes t (by simp [found])
    simpa using Writable.mk named given distinct inner
  | child _ ih => exact ih lexemes
  | group _ _ _ ih => exact ih fun t found => lexemes t (by simp [found])
  | none => nofun
  | more _ _ ihf ihr =>
    refine List.forall_mem_append.mpr ⟨?_, ?_⟩
    · exact ihf fun t found => lexemes t (by simp [found])
    · exact ihr fun t found => lexemes t (by simp [found])

theorem Text.writable {strict : Bool} {ts : List Token} {fs : List Function}
    (text : Text strict ts fs) (lexemes : ∀ t ∈ ts, Lexeme t) : ∀ f ∈ fs, Writable f := by
  induction text with
  | last function => exact function.writable lexemes
  | more function _ ih =>
    refine List.forall_mem_append.mpr ⟨?_, ?_⟩
    · exact function.writable fun t found => lexemes t (by simp [found])
    · exact ih fun t found => lexemes t (by simp [found])

end Grammar

namespace Formatter

theorem numeral_positional {v : Float} {negative : Bool} {m : Nat} {e : Int}
    (finite : Double.view v = .finite negative m e) :
    Numeral (Decimal.shortest m e).positional := by
  by_cases positive : m = 0
  · subst positive
    exact ⟨[48], [], Read.allDigits_zeros 1, List.forall_mem_nil _, nofun, rfl⟩
  · obtain ⟨whole, part, text, all, more, some, -⟩ :=
      Read.positional_spelled (Decimal.shortest m e) Decimal.isDigit_of_mem_shortest
        (Read.shortest_filled positive (Double.fits_of_view finite))
    exact ⟨whole, part, all, more, some, text⟩

theorem numeral_of_digits {w : Bytes} (all : Read.AllDigits w) (some : w ≠ []) : Numeral w :=
  ⟨w, [], all, List.forall_mem_nil _, some, rfl⟩

theorem allDigits_overflow : Read.AllDigits overflow := by
  have one : Read.AllDigits [49] := by
    intro c found
    rw [List.mem_singleton.mp found]
    rfl
  exact one.append (Read.allDigits_zeros 309)

theorem overflow_ne_nil : overflow ≠ [] := nofun

theorem double_overflow : (Read.double overflow).value = Double.infinity := by
  have large : Decimal.numeral overflow = 10 ^ 309 := by decide +kernel
  rw [Read.double_of_digits allDigits_overflow overflow_ne_nil, large]
  decide +kernel

theorem signed_spelled {w : Bytes} {v : Float} (negative : Bool) (numeral : Numeral w)
    (read : (Read.double w).value = if negative then -v else v) :
    Spells (Decimal.signed negative w) fun us => Formula .atom us (.number v .none) := by
  cases negative with
  | false =>
    show Spells w _
    refine .numeral numeral fun t digits same => ?_
    rw [show v = (Read.double t.value).value by rw [same, read]; rfl]
    exact .number digits
  | true =>
    have digits : Spells w fun us => ∃ t : Token, us = [t] ∧ t.kind = .number ∧ t.value = w :=
      .numeral numeral fun t digits same => ⟨t, rfl, digits, same⟩
    refine .mark (k := .minus) rfl digits ?_
    rintro s us sign ⟨t, rfl, digits, same⟩
    rw [show v = -(Read.double t.value).value by rw [same, read]; exact (Double.neg_neg_eq v).symm]
    exact .negative sign digits

theorem number_spelled {v : Float} (is : Double.view v ≠ .nan) :
    Spells (number v) fun us => Formula .atom us (.number v .none) := by
  unfold number
  split
  · next nan => exact absurd nan is
  · next negative infinite =>
    refine signed_spelled negative (numeral_of_digits allDigits_overflow overflow_ne_nil) ?_
    rw [double_overflow]
    refine Double.view_injective ?_
    cases negative with
    | false => exact infinite.symm
    | true => rw [if_pos rfl, Double.view_neg, infinite]; rfl
  · next negative m e finite =>
    refine signed_spelled negative (numeral_positional finite) ?_
    cases negative with
    | false => rw [Read.double_positional finite]; rfl
    | true =>
      have opposite : Double.view (-v) = .finite false m e := by
        rw [Double.view_neg, finite]
        rfl
      rw [Read.double_positional opposite]
      rfl

def rank : Level → Nat
  | .sum => 1
  | .product => 2
  | .atom => 3

/-- The level at which an expression stands without parentheses. -/
def levelOf : Node → Level
  | .operator op _ _ _ => if op == .star || op == .slash then .product else .sum
  | _ => .atom

theorem loosen {tight loose : Level} {ts : List Token} {e : Node} (le : rank loose ≤ rank tight)
    (value : Formula tight ts e) : Formula loose ts e := by
  cases tight with
  | sum =>
    cases loose with
    | sum => exact value
    | product | atom => simp [rank] at le
  | product =>
    cases loose with
    | sum => exact .term value
    | product => exact value
    | atom => simp [rank] at le
  | atom =>
    cases loose with
    | sum => exact .term (.factor value)
    | product => exact .factor value
    | atom => exact value

theorem precedence?_rank (n : Node) :
    precedence? n = none ∧ rank (levelOf n) = 3 ∨ precedence? n = some (rank (levelOf n)) := by
  cases n with
  | operator op l r span =>
    right
    simp only [precedence?, precedence, levelOf]
    split <;> rfl
  | _ => exact .inl ⟨rfl, rfl⟩

theorem looser_eq (n : Node) {prec : Nat} (low : prec ≤ 3) :
    looser n prec = decide (rank (levelOf n) < prec) := by
  rcases precedence?_rank n with ⟨none, top⟩ | same
  · simp [looser, none, top, low]
  · simp [looser, same]

theorem notTighter_eq (n : Node) {prec : Nat} (low : prec ≤ 2) :
    notTighter n prec = decide (rank (levelOf n) < prec + 1) := by
  rcases precedence?_rank n with ⟨none, top⟩ | same
  · simpa [notTighter, none, top] using Nat.lt_succ_of_le low
  · simp [notTighter, same]

theorem rank_of_not_looser {n : Node} {prec : Nat} (low : prec ≤ 3) (bare : looser n prec = false) :
    prec ≤ rank (levelOf n) := by
  simpa [looser_eq n low] using bare

theorem rank_of_tighter {n : Node} {prec : Nat} (low : prec ≤ 2) (bare : notTighter n prec = false) :
    prec + 1 ≤ rank (levelOf n) := by
  simpa [notTighter_eq n low] using bare

theorem parens_spelled {text : Bytes} {level : Level} {e : Node}
    (spelled : Spells text fun us => Formula level us e) :
    Spells (parens text) fun us => Formula .atom us e := by
  have closed : Spells (text ++ [41]) fun us => ∃ (ts : List Token) (r : Token),
      us = ts ++ [r] ∧ Formula .sum ts e ∧ r.kind = .rparen :=
    .close (k := .rparen) rfl spelled fun us r value closes =>
      ⟨us, r, rfl, loosen (by cases level <;> decide) value, closes⟩
  refine .mark (k := .lparen) rfl closed ?_
  rintro l us opens ⟨ts, r, rfl, value, closes⟩
  exact .group opens value closes

theorem operand_spelled {wrap : Bool} {n : Node} {level : Level}
    (spelled : Spells (expr n) fun us => Formula (levelOf n) us n.unplaced)
    (fits : wrap = false → rank level ≤ rank (levelOf n)) :
    Spells (parensIf wrap (expr n)) fun us => Formula level us n.unplaced := by
  cases wrap with
  | false => exact spelled.mono fun us value => loosen (fits rfl) value
  | true =>
    exact (parens_spelled spelled).mono fun us value => loosen (by cases level <;> decide) value

theorem operator_spelled {b : UInt8} {op : Kind} {left right : Bytes} {P Q R : List Token → Prop}
    (is : classify b = .mark op) (name : op.name = [b]) (first : Spells left P)
    (second : Spells right Q)
    (into : ∀ us vs t, P us → t.kind = op → Q vs → R (us ++ t :: vs)) :
    Spells (left ++ " " ++ op.name ++ " " ++ right) R := by
  have rest : Spells (32 :: b :: 32 :: right) fun us => ∃ t vs, us = t :: vs ∧ t.kind = op ∧ Q vs :=
    .blank rfl (.mark is (.blank rfl second) fun t vs kind holds => ⟨t, vs, rfl, kind, holds⟩)
  have text : left ++ " " ++ op.name ++ " " ++ right = left ++ 32 :: b :: 32 :: right := by
    rw [name]
    simp only [List.append_assoc]
    rfl
  rw [text]
  refine .append first rest (loose_blank rfl _) ?_
  rintro us _ holds ⟨t, vs, rfl, kind, later⟩
  exact into us vs t holds kind later

theorem rank_binds {level : Level} {op : Kind} (binds : Parser.Binds level op) :
    precedence op = rank level ∧ rank (Parser.tighter level) = rank level + 1 ∧ rank level ≤ 2 := by
  cases level with
  | sum | product => rcases binds with rfl | rfl <;> decide
  | atom => cases binds

theorem binary_spelled {b : UInt8} {op : Kind} {l r : Node} {span : Interval} {level : Level}
    (is : classify b = .mark op) (name : op.name = [b]) (binds : Parser.Binds level op)
    (left : Spells (expr l) fun us => Formula (levelOf l) us l.unplaced)
    (right : Spells (expr r) fun us => Formula (levelOf r) us r.unplaced) :
    Spells (expr (.operator op l r span)) fun us =>
      Formula level us (Node.operator op l r span).unplaced := by
  obtain ⟨prec, next, low⟩ := rank_binds binds
  have first : Spells (parensIf (looser l (rank level)) (expr l)) fun us =>
      Formula level us l.unplaced :=
    operand_spelled left (rank_of_not_looser (by omega))
  have second : Spells (parensIf (notTighter r (rank level)) (expr r)) fun us =>
      Formula (Parser.tighter level) us r.unplaced :=
    operand_spelled right fun bare => next ▸ rank_of_tighter low bare
  rw [expr, prec]
  refine operator_spelled is name first second ?_
  rintro us vs t before rfl behind
  exact Parser.formula_operator binds before behind

/-- An expression is written so that its grouping is read again. -/
theorem expr_spelled {e : Node} (arithmetic : Arithmetic e) :
    Spells (expr e) fun us => Formula (levelOf e) us e.unplaced := by
  induction arithmetic with
  | number is => exact number_spelled is
  | operator is _ _ ihl ihr =>
    rcases is with rfl | rfl | rfl | rfl
    · exact @binary_spelled 43 _ _ _ _ .sum rfl rfl (.inl rfl) ihl ihr
    · exact @binary_spelled 45 _ _ _ _ .sum rfl rfl (.inr rfl) ihl ihr
    · exact @binary_spelled 42 _ _ _ _ .product rfl rfl (.inl rfl) ihl ihr
    · exact @binary_spelled 47 _ _ _ _ .product rfl rfl (.inr rfl) ihl ihr

theorem assign_spelled {p : Bytes × Node} (named : Word p.1) (arithmetic : Arithmetic p.2) :
    Spells (p.1 ++ "=" ++ expr p.2) fun us => Assign us (p.1, p.2.unplaced) := by
  have value : Spells (61 :: expr p.2) fun us => ∃ t vs, us = t :: vs ∧ t.kind = .assign ∧
      Formula .sum vs p.2.unplaced :=
    .mark (k := .assign) rfl (expr_spelled arithmetic) fun t vs kind value =>
      ⟨t, vs, rfl, kind, loosen (by cases levelOf p.2 <;> decide) value⟩
  have name : Spells p.1 fun us => ∃ t : Token, us = [t] ∧ t.kind = .identifier ∧ t.value = p.1 :=
    .word named fun t kind same => ⟨t, rfl, kind, same⟩
  rw [List.append_assoc]
  refine .append name value (loose_mark (k := .assign) rfl _) ?_
  rintro _ _ ⟨n, rfl, kind, same⟩ ⟨t, vs, rfl, given, value⟩
  rw [← same]
  exact .mk kind given value

theorem parameters_spelled (ps : List (Bytes × Node))
    (given : ∀ p ∈ ps, Word p.1 ∧ Arithmetic p.2) :
    Spells (parameters ps) fun us => Assigns us (unplacedParams ps) := by
  induction ps with
  | nil => exact .nil .none
  | cons p ps ih =>
    obtain ⟨⟨named, arithmetic⟩, later⟩ := List.forall_mem_cons.mp given
    have first := assign_spelled named arithmetic
    cases ps with
    | nil => exact first.mono fun us assign => .last assign
    | cons q ps =>
      have rest : Spells (44 :: 32 :: parameters (q :: ps)) fun us => ∃ t vs, us = t :: vs ∧
          t.kind = .comma ∧ Assigns vs (unplacedParams (q :: ps)) :=
        .mark (k := .comma) rfl (.blank rfl (ih later)) fun t vs kind list => ⟨t, vs, rfl, kind, list⟩
      have text : parameters (p :: q :: ps) =
          p.1 ++ "=" ++ expr p.2 ++ 44 :: 32 :: parameters (q :: ps) := by
        rw [parameters, List.append_assoc _ (", " : Bytes)]
        · rfl
        · nofun
      rw [text]
      refine .append first rest (loose_mark (k := .comma) rfl _) ?_
      rintro us _ assign ⟨t, vs, rfl, comma, list⟩
      exact .more assign comma list

theorem separator_blank (indent : Int) (depth : Nat) :
    ∀ b ∈ separator indent depth, Bytes.isBlank b = true := by
  intro b found
  unfold separator at found
  split at found
  · rcases List.mem_cons.mp found with rfl | space
    · rfl
    · rw [List.eq_of_mem_replicate space]
      rfl
  · rw [List.mem_singleton.mp found]
    rfl

theorem loose_separator (indent : Int) (depth : Nat) (rest : Bytes) :
    Loose (separator indent depth ++ rest) := by
  unfold separator
  split
  · exact loose_blank rfl _
  · exact loose_blank rfl _

theorem head_spelled {name : Bytes} {ps : List (Bytes × Node)} (named : Word name)
    (given : ∀ p ∈ ps, Word p.1 ∧ Arithmetic p.2) (distinct : (ps.map Prod.fst).Nodup) :
    Spells (name ++ if ps.isEmpty then [] else parens (parameters ps)) fun us =>
      ∀ next, next ≠ .lparen → Head true next us name (unplacedParams ps) := by
  have word : Spells name fun us => ∃ t : Token, us = [t] ∧ t.kind = .identifier ∧ t.value = name :=
    .word named fun t kind same => ⟨t, rfl, kind, same⟩
  cases ps with
  | nil =>
    rw [List.isEmpty_nil, if_pos rfl, List.append_nil]
    refine word.mono ?_
    rintro us ⟨t, rfl, kind, same⟩ next alone
    rw [← same]
    exact .bare kind alone
  | cons p ps =>
    have list : Spells (parameters (p :: ps) ++ [41]) fun us => ∃ (vs : List Token) (r : Token),
        us = vs ++ [r] ∧ Assigns vs (unplacedParams (p :: ps)) ∧ r.kind = .rparen :=
      .close rfl (parameters_spelled _ given) fun us r list closes => ⟨us, r, rfl, list, closes⟩
    have all : Spells (40 :: (parameters (p :: ps) ++ [41]))
        fun us => ∃ (l : Token) (vs : List Token) (r : Token),
        us = l :: (vs ++ [r]) ∧ l.kind = .lparen ∧ Assigns vs (unplacedParams (p :: ps)) ∧
          r.kind = .rparen := by
      refine .mark (k := .lparen) rfl list ?_
      rintro l _ opens ⟨vs, r, rfl, list, closes⟩
      exact ⟨l, vs, r, rfl, opens, list, closes⟩
    have names : ((unplacedParams (p :: ps)).map Prod.fst).Nodup := by
      simpa [unplacedParams_eq_map, Function.comp_def] using distinct
    refine .append word all (loose_mark (k := .lparen) rfl _) ?_
    rintro _ _ ⟨t, rfl, kind, same⟩ ⟨l, vs, r, rfl, opens, list, closes⟩ next -
    rw [← same, ← collect_distinct names]
    exact .called kind opens list closes fun _ => names

/-- What the text of a function is read as, unless a parenthesis follows. -/
def Stands (f : Function) (us : List Token) : Prop :=
  ∀ next, next ≠ .lparen → Solid true .function next us [f.unplaced]

theorem functions_spelled {fs : List Function} {indent : Int} {depth : Nat}
    (each : ∀ f ∈ fs, Spells (function indent depth f) (Stands f)) :
    Spells (functions indent depth fs) fun us =>
      Solid true .children .rbrace us (unplacedAll fs) ∧ ahead us .rbrace ≠ .lparen := by
  induction fs with
  | nil => exact .nil ⟨.none, nofun⟩
  | cons f fs ih =>
    obtain ⟨first, later⟩ := List.forall_mem_cons.mp each
    have follows : Loose (functions indent depth fs) := by
      cases fs with
      | nil => exact loose_nil
      | cons g gs =>
        rw [functions, List.append_assoc]
        exact loose_separator indent depth _
    rw [functions, List.append_assoc]
    refine .blanks (separator_blank indent depth) (.append first (ih later) follows ?_)
    rintro us vs stands ⟨rest, alone⟩
    have function := stands _ alone
    obtain ⟨t, ws, rfl, named⟩ := Parser.function_named function
    refine ⟨.more (.child function) rest, ?_⟩
    show t.kind ≠ .lparen
    rw [named]
    nofun

theorem function_spelled {f : Function} (writable : Writable f) (indent : Int) (depth : Nat) :
    Spells (function indent depth f) (Stands f) := by
  induction writable generalizing depth with
  | @mk name params operands span named given distinct _ ih =>
    have head := head_spelled named given distinct
    cases operands with
    | nil =>
      rw [function]
      rw [List.isEmpty_nil, if_pos rfl, List.append_nil]
      exact head.mono fun us head next alone => .plain (head next alone)
    | cons g gs =>
      have inner := functions_spelled fun f found => ih f found (depth + 1)
      have closed : Spells (functions indent (depth + 1) (g :: gs) ++ (separator indent depth ++ [125]))
          fun us => ∃ (vs : List Token) (r : Token), us = vs ++ [r] ∧
            Solid true .children .rbrace vs (unplacedAll (g :: gs)) ∧ r.kind = .rbrace := by
        refine .append inner (.blanks (separator_blank indent depth) (.single (k := .rbrace) rfl))
          (loose_separator indent depth _) ?_
        rintro vs _ ⟨inner, -⟩ ⟨r, rfl, closes⟩
        exact ⟨vs, r, rfl, inner, closes⟩
      have body : Spells (32 :: 123 :: (functions indent (depth + 1) (g :: gs) ++
          (separator indent depth ++ [125])))
          fun us => ∃ (l : Token) (vs : List Token) (r : Token), us = l :: (vs ++ [r]) ∧
            l.kind = .lbrace ∧ Solid true .children .rbrace vs (unplacedAll (g :: gs)) ∧
              r.kind = .rbrace := by
        refine .blank rfl (.mark (k := .lbrace) rfl closed ?_)
        rintro l _ opens ⟨vs, r, rfl, inner, closes⟩
        exact ⟨l, vs, r, rfl, opens, inner, closes⟩
      have text : function indent depth (.mk name params (g :: gs) span) =
          (name ++ if params.isEmpty then [] else parens (parameters params)) ++
            32 :: 123 :: (functions indent (depth + 1) (g :: gs) ++ (separator indent depth ++ [125])) := by
        rw [function, ← List.append_assoc (functions _ _ _)]
        rfl
      rw [text]
      refine .append head body (loose_blank rfl _) ?_
      rintro us _ head ⟨l, vs, r, rfl, opens, inner, closes⟩ next -
      exact .block (head .lbrace nofun) opens inner closes

theorem topLevel_spelled {fs : List Function} (some : fs ≠ []) (all : ∀ f ∈ fs, Writable f)
    (indent : Int) :
    Spells (topLevel indent fs) fun us => Text true us (unplacedAll fs) := by
  induction fs with
  | nil => exact absurd rfl some
  | cons f fs ih =>
    obtain ⟨writable, later⟩ := List.forall_mem_cons.mp all
    have first := function_spelled writable indent 0
    cases fs with
    | nil => exact first.mono fun us stands => .last (stands .eof nofun)
    | cons g gs =>
      have rest : Spells (separator indent 0 ++ topLevel indent (g :: gs)) fun us =>
          Text true us (unplacedAll (g :: gs)) :=
        .blanks (separator_blank indent 0) (ih nofun later)
      rw [topLevel, List.append_assoc]
      · refine .append first rest (loose_separator indent 0 _) ?_
        intro us vs stands text
        obtain ⟨t, ws, rfl, named⟩ := Parser.text_starts text
        refine .more (stands _ ?_) text
        show t.kind ≠ .lparen
        rw [named]
        nofun
      · nofun

end Formatter

theorem Grammar.Text.filled {strict : Bool} {ts : List Token} {fs : List Function}
    (text : Text strict ts fs) : fs ≠ [] := by
  cases text with
  | last function => cases function <;> nofun
  | more function rest => cases function <;> nofun

theorem parse_writable {strict : Bool} {source : Bytes} {d : Document}
    (accepted : (parse strict source).result = .ok d) :
    d.operands ≠ [] ∧ ∀ f ∈ d.operands, Writable f := by
  obtain ⟨ts, scanned, accepted⟩ := parse_ok accepted
  obtain ⟨us, pos, rfl, lexemes⟩ := scan_lexemes scanned
  have text := parseTokens_sound (fun t found => (lexemes t found).proper) rfl accepted
  constructor
  · intro none
    exact text.filled (by rw [none]; rfl)
  · intro f found
    refine (text.writable lexemes f.unplaced ?_).placed rfl
    rw [unplacedAll_eq_map]
    exact List.mem_map_of_mem found

theorem parse_written {d : Document} (some : d.operands ≠ []) (writable : ∀ f ∈ d.operands, Writable f)
    (indent : Int) :
    ∃ d', (parse true (d.format indent)).result = .ok d' ∧
      (parse true (d.format indent)).warnings = [] ∧
      unplacedAll d'.operands = unplacedAll d.operands := by
  have spelled : Spells (d.format indent) fun us => Text true us (unplacedAll d.operands) := by
    have line : Spells "\n" fun us => us = [] := .blank rfl (.nil rfl)
    refine .append (Formatter.topLevel_spelled some writable indent) line (loose_blank rfl []) ?_
    rintro us _ text rfl
    rwa [List.append_nil]
  obtain ⟨us, pos, text, scanned⟩ := spelled.scan
  have ends : (Token.finish pos).kind = .eof := rfl
  obtain ⟨d', read, same, silent⟩ := parseTokens_complete text ends
  have whole : parse true (d.format indent) = parseTokens true (us ++ [Token.finish pos]) := by
    rw [parse, scanned]
  exact ⟨d', by rw [whole, read], by rw [whole, silent rfl], same⟩

/-- A formatted text is accepted even when strict, without a warning, and its tree is the one that
was formatted, places apart. -/
theorem parse_format {source : Bytes} {d : Document}
    (accepted : (parse false source).result = .ok d) (indent : Int) :
    ∃ d', (parse true (d.format indent)).result = .ok d' ∧
      (parse true (d.format indent)).warnings = [] ∧
      d'.operands.map Function.unplaced = d.operands.map Function.unplaced := by
  obtain ⟨some, writable⟩ := parse_writable accepted
  obtain ⟨d', read, silent, same⟩ := parse_written some writable indent
  rw [unplacedAll_eq_map, unplacedAll_eq_map] at same
  exact ⟨d', read, silent, same⟩

/-- A text with a repeated parameter, needed and needless parentheses, and an empty list. -/
def crowded : Bytes := "b(x=1,y=(-2)-(3-0.5),x=4)\x7b(c)\x7d d()"

theorem parse_format_crowded :
    ∃ d, (parse false crowded).result = .ok d ∧
      ∃ d', (parse true (d.format 2)).result = .ok d' ∧
        (parse true (d.format 2)).warnings = [] ∧
        d'.operands.map Function.unplaced = d.operands.map Function.unplaced := by
  have accepted : (parse false crowded).result.isOk = true := by decide +kernel
  cases read : (parse false crowded).result with
  | error c =>
    rw [read] at accepted
    cases accepted
  | ok d => exact ⟨d, rfl, parse_format read 2⟩

end DistanceField
