import DistanceField.Proofs.Number.Whole
import DistanceField.Proofs.Probe.Phrases
import DistanceField.Proofs.Probe.Spelling
import DistanceField.Proofs.Shader.Magnitudes
import DistanceField.Proofs.Shader.Meaning
import DistanceField.Probe.Program

/-! What the text of a number is read as, and its value. -/
namespace DistanceField.Probe

open Shader Double Decimal

def Operand (text : Bytes) (e : Expr) : Prop := ∃ ts, Spells text ts ∧ Atom ts e

def Argument (text : Bytes) (e : Expr) : Prop := ∃ ts, Spells text ts ∧ Whole ts e

theorem Operand.argument {text : Bytes} {e : Expr} (operand : Operand text e) :
    Argument text e := by
  obtain ⟨ts, spells, atom⟩ := operand
  exact ⟨ts, spells, atom.argument⟩

theorem spelled_eq (whole : Bytes) {part : Bytes} (all : Read.AllDigits part) :
    ∃ frac, Fraction frac ∧ Read.spelled whole part = whole ++ frac ∧
      (frac = [] ∧ part = [] ∨ 46 ∈ frac) := by
  cases part with
  | nil => exact ⟨[], .none, (List.append_nil whole).symm, .inl ⟨rfl, rfl⟩⟩
  | cons d part => exact ⟨46 :: d :: part, .point all, rfl, .inr (List.mem_cons_self ..)⟩

/-- The text of a positive number: digits, or digits with a point or an exponent. -/
theorem write_shape {m : Nat} {e : Int} (positive : m ≠ 0) (fits : Fits m e) (l : Layout) :
    ∃ whole frac tail, l.write (shortest m e) = whole ++ frac ++ tail ∧ Read.AllDigits whole ∧
      whole ≠ [] ∧ Fraction frac ∧ Tail tail ∧
      (frac = [] ∧ tail = [] ∧ Rounds m e (Decimal.numeral whole) ∨
        ∃ b ∈ whole ++ frac ++ tail, Read.isDigit b = false) := by
  have filled := Read.shortest_filled positive fits
  have rounds := shortest_rounds positive fits
  unfold Decimal.Layout.write
  split
  · obtain ⟨c, part, digits, text, -⟩ := Read.scientific_spelled (shortest m e) filled l.width
    have all : Read.AllDigits (c :: part) := digits ▸ isDigit_of_mem_shortest
    obtain ⟨frac, fraction, split, -⟩ := spelled_eq [c] (all.drop 1)
    refine ⟨[c], frac, _, by rw [text, ← split]; rfl, all.take 1, nofun, fraction,
      .signed (by split <;> decide) ((Read.allDigits_zeros _).append fun _ => isDigit_of_mem_ofNat),
      .inr ?_⟩
    exact ⟨101, List.mem_append_right _ (List.mem_cons_self ..), rfl⟩
  · obtain ⟨whole, part, text, all, more, some, same⟩ :=
      Read.positional_spelled (shortest m e) isDigit_of_mem_shortest filled
    obtain ⟨frac, fraction, split, kind⟩ := spelled_eq whole more
    refine ⟨whole, frac, [], by rw [text, split, List.append_nil], all, some, fraction, .none, ?_⟩
    rcases kind with ⟨rfl, rfl⟩ | point
    · left
      refine ⟨rfl, rfl, ?_⟩
      simpa [← same] using rounds
    · exact .inr ⟨46, List.mem_append_left _ (List.mem_append_right _ point), rfl⟩

theorem rounds_small {m k : Nat} {e : Int} (positive : m ≠ 0) (rounds : Rounds m e k)
    (bounded : (m : ℚ) * 2 ^ e ≤ 1000000) : k < 2 ^ 53 := by
  have unit := two_zpow_pos e
  have one : (1 : ℚ) ≤ m := by exact_mod_cast Nat.one_le_iff_ne_zero.mpr positive
  have upper := rounds.upper
  have few : (k : ℚ) < 2 ^ 53 := by nlinarith
  exact_mod_cast few

/-- What a number is read as: digits alone are whole. -/
def magnitude (text : Bytes) (v : Float) : Expr :=
  if text.all Read.isDigit then .whole (Decimal.numeral text) else .float v

def constant (v : Float) : Expr :=
  let c := Scalar.clamp v
  if c == 0 then .whole 0
  else match view c with
    | .finite true m e => .negate (magnitude (plain.write (shortest m e)) (-c))
    | _ => magnitude (Decimal.text plain c) c

def Standard (call : Bytes → List Value → Except Stop Value) : Prop :=
  ∀ (b : Builtin) (args : List Value), call b.name args = b.apply args

structure Worth (e : Expr) (x : Float) : Prop where
  known : ∀ functions, (e.kind? functions).isSome = true
  value : ∃ v : Value, v.scalar = .ok x ∧ ∀ call p, Standard call → e.evaluate call p = .ok v

theorem magnitude_operand {v : Float} {m : Nat} {e : Int} (finite : view v = .finite false m e)
    (positive : m ≠ 0) (bounded : (m : ℚ) * 2 ^ e ≤ 1000000) :
    Operand (plain.write (shortest m e)) (magnitude (plain.write (shortest m e)) v) ∧
      Worth (magnitude (plain.write (shortest m e)) v) v := by
  have read := Read.double_write finite plain
  obtain ⟨whole, frac, tail, text, all, some, fraction, ends, kind⟩ :=
    write_shape positive (fits_of_view finite) plain
  rw [text] at read ⊢
  rcases kind with ⟨rfl, rfl, rounds⟩ | ⟨b, found, other⟩
  · rw [List.append_nil, List.append_nil] at read ⊢
    have small := rounds_small positive rounds bounded
    have digits : whole.all Read.isDigit = true := List.all_eq_true.mpr all
    rw [magnitude, if_pos digits]
    constructor
    · have spells := Spells.number all some .none .none (t := .whole (Decimal.numeral whole))
        (by rw [List.append_nil, List.append_nil]; exact ofNumeral_whole all some small)
      rw [List.append_nil, List.append_nil] at spells
      exact ⟨_, spells, .whole _⟩
    · refine ⟨fun _ => rfl, _, ?_, fun _ _ _ => rfl⟩
      have same := Read.double_of_digits all some
      rw [read, ofDecimal_whole small] at same
      exact congrArg Except.ok same.symm
  · have digits : ¬ (whole ++ frac ++ tail).all Read.isDigit = true := by
      intro every
      rw [List.all_eq_true.mp every b found] at other
      cases other
    rw [magnitude, if_neg digits]
    have plain : Plain (whole ++ frac ++ tail) :=
      ((plain_digits all).append fraction.plain).append ends.plain
    have float := ofNumeral_float plain ⟨b, found, other⟩ read
    exact ⟨⟨_, .number all some fraction ends float, .float v⟩,
      fun _ => rfl, _, rfl, fun _ _ _ => rfl⟩

theorem Operand.negate {text : Bytes} {e : Expr} (operand : Operand text e) :
    Operand (45 :: text) (.negate e) := by
  obtain ⟨ts, spells, atom⟩ := operand
  exact ⟨_, .mark mark_minus spells, atom.negate⟩

theorem onEach_scalar {f : Float → Float} {a : Value} {x : Float} (scalar : a.scalar = .ok x) :
    Builtin.onEach f a = .ok (.float (f x)) := by
  cases a with
  | float v | whole n =>
    cases scalar
    rfl
  | vector | text | truth | nothing => cases scalar

theorem Worth.negate {e : Expr} {x : Float} (worth : Worth e x) : Worth (.negate e) (-x) := by
  obtain ⟨v, scalar, value⟩ := worth.value
  refine ⟨fun functions => ?_, .float (-x), rfl, fun call p standard => ?_⟩
  · rw [Expr.kind?, Option.isSome_map]
    exact worth.known functions
  · rw [Expr.evaluate, value call p standard]
    exact (standard .neg [v]).trans (onEach_scalar scalar)

theorem constant_operand (v : Float) :
    Operand (Shader.number (Scalar.clamp v)) (constant v) ∧ Worth (constant v) (written v) := by
  obtain ⟨negative, m, e, finite, bounded⟩ := view_clamp v
  change view (Scalar.clamp v) = _ at finite
  rw [number_clamp]
  unfold constant written
  dsimp only
  rw [eq_zero_iff finite]
  by_cases zero : m = 0
  · rw [beq_iff_eq.mpr zero, if_pos rfl, if_pos rfl, if_pos rfl]
    have digit : Read.AllDigits [48] := Read.allDigits_zeros 1
    have spells := Spells.number digit (List.cons_ne_nil _ _) .none .none
      (ofNumeral_whole digit (List.cons_ne_nil _ _) (by decide))
    exact ⟨⟨_, spells, .whole 0⟩, fun _ => rfl, _, rfl, fun _ _ _ => rfl⟩
  · rw [beq_eq_false_iff_ne.mpr zero, if_neg Bool.false_ne_true, if_neg Bool.false_ne_true,
      if_neg Bool.false_ne_true, Decimal.text, finite]
    cases negative with
    | false => exact magnitude_operand finite zero bounded
    | true =>
      have opposite : view (-Scalar.clamp v) = .finite false m e := by
        rw [view_neg, finite]
        rfl
      obtain ⟨operand, worth⟩ := magnitude_operand opposite zero bounded
      have back := worth.negate
      rw [neg_neg_eq] at back
      exact ⟨operand.negate, back⟩

end DistanceField.Probe
