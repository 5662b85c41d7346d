import DistanceField.Proofs.Shader.Magnitudes

/-! The text of a literal, its grammar and its exact value. Whatever number is given, the text is a sign,
digits, a point with digits and an exponent, of which the last three may be absent; its value is that of
the shortest digits of the number kept within the bounds, so it reads back as that number. -/
namespace DistanceField

open Double Decimal Read

/-- The figures of a number: its sign, the digits on both sides of the point, and an exponent with a sign
of its own, if there is one. -/
structure Figures where
  negative : Bool
  whole : Bytes
  part : Bytes
  power : Option (Bool × Bytes)

namespace Figures

def powerText : Option (Bool × Bytes) → Bytes
  | none => []
  | some (negative, ds) => 101 :: (if negative then 45 else 43) :: ds

/-- There is a point only before digits. -/
def text (n : Figures) : Bytes := signed n.negative (spelled n.whole n.part ++ powerText n.power)

def exponent (n : Figures) : Int :=
  match n.power with
  | none => 0
  | some (negative, ds) => if negative then -Decimal.numeral ds else Decimal.numeral ds

def value (n : Figures) : ℚ :=
  (if n.negative then -1 else 1) *
    (Decimal.numeral (n.whole ++ n.part) * 10 ^ (n.exponent - n.part.length))

/-- Digits only, and some before the point and in the exponent. -/
structure Proper (n : Figures) : Prop where
  whole : AllDigits n.whole
  filled : n.whole ≠ []
  part : AllDigits n.part
  power : ∀ s ds, n.power = some (s, ds) → AllDigits ds ∧ ds ≠ []

def Trimmed (n : Figures) : Prop := ∀ s ds, n.power = some (s, ds) → ds.head? ≠ some 48

def powerOf (tail : Bytes) : Option (Bool × Bytes) :=
  if tail.isEmpty then none else some (tail.tail.head? == some 45, tail.drop 2)

def parts (negative : Bool) (digits : Bytes) : Figures :=
  let rest := digits.dropWhile isDigit
  if rest.head? == some 46 then
    ⟨negative, digits.takeWhile isDigit, rest.tail.takeWhile isDigit,
      powerOf (rest.tail.dropWhile isDigit)⟩
  else ⟨negative, digits.takeWhile isDigit, [], powerOf rest⟩

def read (text : Bytes) : Figures :=
  if text.head? == some 45 then parts true text.tail else parts false text

theorem powerOf_text (power : Option (Bool × Bytes)) : powerOf (powerText power) = power := by
  rcases power with - | ⟨negative, ds⟩
  · rfl
  · cases negative <;> rfl

theorem powerText_head (power : Option (Bool × Bytes)) : ∀ c ∈ (powerText power).head?, c = 101 := by
  rcases power with - | ⟨negative, ds⟩
  · simp [powerText]
  · simp [powerText, eq_comm]

theorem parts_spelled (negative : Bool) {whole part : Bytes} (all : AllDigits whole)
    (more : AllDigits part) (power : Option (Bool × Bytes)) :
    parts negative (spelled whole part ++ powerText power) = ⟨negative, whole, part, power⟩ := by
  have ends : ∀ c ∈ (powerText power).head?, isDigit c = false := by
    intro c first
    rw [powerText_head power c first]
    rfl
  cases part with
  | nil =>
    obtain ⟨taken, left⟩ := takeWhile_stop all ends
    have bare : ¬ ((powerText power).head? == some 46) = true := by
      intro point
      exact absurd (powerText_head power 46 (eq_of_beq point)) (by decide)
    show parts negative (whole ++ powerText power) = _
    rw [parts, left, taken, if_neg bare, powerOf_text]
  | cons c part =>
    obtain ⟨taken, left⟩ := @takeWhile_stop _ isDigit whole (46 :: (c :: part ++ powerText power)) all
      (by simp; rfl)
    obtain ⟨inside, behind⟩ := takeWhile_stop more ends
    have text : spelled whole (c :: part) ++ powerText power =
        whole ++ 46 :: (c :: part ++ powerText power) := by
      simp [spelled]
    rw [text, parts, left, taken, if_pos (by simp), List.tail_cons, inside, behind, powerOf_text]

theorem read_text {n : Figures} (proper : n.Proper) : read n.text = n := by
  obtain ⟨negative, whole, part, power⟩ := n
  obtain ⟨all, filled, more, -⟩ := proper
  have whole_parts := parts_spelled negative all more power
  cases negative with
  | true => exact whole_parts
  | false =>
    obtain ⟨c, rest, rfl⟩ := List.exists_cons_of_ne_nil filled
    have digit : isDigit c = true := all c (List.mem_cons_self ..)
    have head : (spelled (c :: rest) part ++ powerText power).head? = some c := by
      unfold spelled
      split <;> rfl
    have unsigned : ¬ ((spelled (c :: rest) part ++ powerText power).head? == some 45) = true := by
      rw [head]
      rintro minus
      cases eq_of_beq minus
      cases digit
    show read (spelled (c :: rest) part ++ powerText power) = _
    rw [read, if_neg unsigned]
    exact whole_parts

def amount (negative : Bool) (d : Decimal) : ℚ := (if negative then -1 else 1) * d.value

theorem value_zero (sign negative : Bool) (power : Option (Bool × Bytes)) (e : Int) :
    (⟨sign, [48], [], power⟩ : Figures).value = amount negative (shortest 0 e) := by
  simp [value, amount, Decimal.value, shortest, Decimal.numeral]

def scale (w : Nat) (x : Int) : Bool × Bytes :=
  (decide (x < 0), zeros (w - (Bytes.ofNat x.natAbs).length) ++ Bytes.ofNat x.natAbs)

theorem scale_digits (w : Nat) (x : Int) : AllDigits (scale w x).2 ∧ (scale w x).2 ≠ [] :=
  ⟨(allDigits_zeros _).append fun _ => isDigit_of_mem_ofNat, by simp [scale, Bytes.ofNat]⟩

theorem powerText_scale (w : Nat) (x : Int) : powerText (some (scale w x)) =
    101 :: (if x < 0 then 45 else 43) ::
      (zeros (w - (Bytes.ofNat x.natAbs).length) ++ Bytes.ofNat x.natAbs) := by
  simp [powerText, scale]

theorem exponent_scale (negative : Bool) (whole part : Bytes) (w : Nat) (x : Int) :
    (⟨negative, whole, part, some (scale w x)⟩ : Figures).exponent = x := by
  have number : Decimal.numeral (scale w x).2 = x.natAbs := by
    rw [scale, numeral_append, numeral_zeros, numeral_ofNat]
    omega
  simp only [exponent, number]
  simp only [scale, decide_eq_true_eq]
  split <;> omega

theorem scale_one_head {x : Int} (some : x ≠ 0) : (scale 1 x).2.head? ≠ .some 48 := by
  rw [scale, padding_one, List.nil_append]
  exact fun first => ofNat_head (Int.natAbs_ne_zero.mpr some) 48 first rfl

section Writing

variable {m : Nat} {e : Int} (fits : Fits m e) (negative : Bool)

include fits

theorem positional_figures : ∃ n : Figures, n.Proper ∧ n.negative = negative ∧ n.power = none ∧
    n.text = signed negative (shortest m e).positional ∧ n.value = amount negative (shortest m e) := by
  by_cases zero : m = 0
  · subst zero
    exact ⟨⟨negative, [48], [], none⟩, ⟨allDigits_zeros 1, by simp, List.forall_mem_nil _, by simp⟩,
      rfl, rfl, rfl, value_zero ..⟩
  · obtain ⟨whole, part, text, all, more, filled, same⟩ :=
      positional_spelled (shortest m e) isDigit_of_mem_shortest (shortest_filled zero fits)
    refine ⟨⟨negative, whole, part, none⟩, ⟨all, filled, more, by simp⟩, rfl, rfl, ?_, ?_⟩
    · rw [text]
      exact congrArg (signed negative) (List.append_nil _)
    · exact congrArg ((if negative then -1 else 1) * ·) same

theorem scientific_figures (w : Nat) : ∃ n : Figures, n.Proper ∧ n.negative = negative ∧
    n.power = some (scale w (shortest m e).exponent) ∧
    n.text = signed negative ((shortest m e).scientific w) ∧
    n.value = amount negative (shortest m e) := by
  have proper {c : UInt8} {part : Bytes} {x : Int} (all : AllDigits (c :: part)) :
      (⟨negative, [c], part, some (scale w x)⟩ : Figures).Proper := by
    refine ⟨all.take 1, List.cons_ne_nil _ _, all.drop 1, ?_⟩
    rintro s ds ⟨⟩
    exact scale_digits w x
  by_cases zero : m = 0
  · subst zero
    refine ⟨⟨negative, [48], [], some (scale w 0)⟩, proper (allDigits_zeros 1), rfl, rfl, ?_,
      value_zero ..⟩
    rw [text, powerText_scale]
    rfl
  · obtain ⟨c, part, digits, text, same⟩ :=
      scientific_spelled (shortest m e) (shortest_filled zero fits) w
    refine ⟨⟨negative, [c], part, some (scale w (shortest m e).exponent)⟩,
      proper (digits ▸ isDigit_of_mem_shortest), rfl, rfl, ?_, ?_⟩
    · rw [text, ← powerText_scale]
      rfl
    · rw [value, exponent_scale]
      exact congrArg ((if negative then -1 else 1) * ·) same

theorem write_figures (l : Decimal.Layout) : ∃ n : Figures, n.Proper ∧ n.negative = negative ∧
    n.text = signed negative (l.write (shortest m e)) ∧ n.value = amount negative (shortest m e) := by
  unfold Decimal.Layout.write
  split
  · obtain ⟨n, proper, sign, -, text, value⟩ := scientific_figures fits negative l.width
    exact ⟨n, proper, sign, text, value⟩
  · obtain ⟨n, proper, sign, -, text, value⟩ := positional_figures fits negative
    exact ⟨n, proper, sign, text, value⟩

end Writing

end Figures

/-- In any layout, the text of a finite number has the value of its shortest digits. -/
theorem value_text {v : Float} {negative : Bool} {m : Nat} {e : Int}
    (finite : view v = .finite negative m e) (l : Decimal.Layout) :
    (Figures.read (text l v)).value = Figures.amount negative (shortest m e) := by
  obtain ⟨n, proper, -, written, value⟩ := Figures.write_figures (fits_of_view finite) negative l
  rw [text_finite finite, ← written, Figures.read_text proper, value]

theorem negative_iff {v : Float} {negative : Bool} {m : Nat} {e : Int}
    (finite : view v = .finite negative m e) : v < 0 ↔ negative = true ∧ m ≠ 0 := by
  have unit := two_zpow_pos e
  rw [lt_iff_place, place_zero, finite, show view 0 = .finite false 0 (-1074) from rfl]
  cases negative with
  | false =>
    have least : (0 : ℚ) ≤ (View.finite false m e).place := mul_nonneg (Nat.cast_nonneg m) unit.le
    exact iff_of_false (fun below => not_lt.mpr least below.2.2) (by simp)
  | true =>
    have below : (View.finite true m e).place < 0 ↔ m ≠ 0 := by
      rw [← Nat.pos_iff_ne_zero, ← @Nat.cast_pos ℚ]
      exact neg_lt_zero.trans (mul_pos_iff_of_pos_right unit)
    simp [below]

namespace Shader

theorem number_figures {v : Float} {negative : Bool} {m : Nat} {e : Int}
    (finite : view v = .finite negative m e) :
    ∃ n : Figures, n.Proper ∧ n.Trimmed ∧ n.text = number v ∧
      (n.power = none ↔ v == 0 ∨ tiny ≤ v.abs ∧ v.abs < huge) ∧ (n.negative = true ↔ v < 0) ∧
      n.value = Figures.amount negative (shortest m e) := by
  have fits := fits_of_view finite
  rw [negative_iff finite, eq_zero_iff finite]
  by_cases zero : m = 0
  · have none : number v = [48] := by
      rw [number, eq_zero_iff finite, beq_iff_eq.mpr zero]
      rfl
    subst zero
    exact ⟨⟨false, [48], [], .none⟩, ⟨allDigits_zeros 1, by simp, List.forall_mem_nil _, by simp⟩,
      by simp [Figures.Trimmed], none.symm, by simp, by simp, Figures.value_zero ..⟩
  rw [number_finite finite zero, text_finite finite, tiny_le_abs finite zero, abs_lt_huge finite zero]
  by_cases within : -6 ≤ (shortest m e).exponent ∧ (shortest m e).exponent < 21
  · obtain ⟨n, proper, sign, power, text, value⟩ := Figures.positional_figures fits negative
    rw [@write_within plain _ within]
    exact ⟨n, proper, by simp [Figures.Trimmed, power], text, by simp [power, within], by simp [sign, zero],
      value⟩
  · have beyond : (shortest m e).exponent < -6 ∨ 21 ≤ (shortest m e).exponent := by omega
    obtain ⟨n, proper, sign, power, text, value⟩ := Figures.scientific_figures fits negative 1
    rw [@write_beyond plain _ beyond]
    refine ⟨n, proper, ?_, text, by simp [power, within, zero], by simp [sign, zero], value⟩
    rw [Figures.Trimmed, power]
    rintro s ds ⟨⟩
    exact Figures.scale_one_head (by omega)

theorem clamp_lt_huge (v : Float) : (clamp v).abs < huge := by
  obtain ⟨negative, m, e, finite, bounded⟩ := view_clamp v
  rw [lt_iff_place, view_huge, unsigned_finite finite]
  refine ⟨View.noConfusion, View.noConfusion, ?_⟩
  calc (View.finite false m e).place ≤ 1000000 := bounded
    _ < (View.finite false 7629394531250000 17).place := by norm_num [View.place]

theorem double_number (v : Float) :
    Read.double (number (clamp v)) = ⟨if clamp v == 0 then 0 else clamp v, none⟩ := by
  rw [show number (clamp v) = _ from number_clamp v]
  change Read.double (if clamp v == 0 then [48] else text plain (clamp v)) = _
  split
  · exact double_text plain 0
  · exact double_text plain (clamp v)

/-- A literal holds the figures of the number kept within the bounds. It has an exponent, without
zeros in front, exactly for numbers below a millionth, and a minus exactly for negative ones. Its value is
that of the shortest digits, as they are set out in any layout, and it reads back as the number, with zero
for both zeros. Numbers are kept within the bounds once and for all, and in their order. -/
theorem literal_denotes (v : Float) :
    (∃ text, literal v = "float(" ++ text ++ ")" ∧
      let n := Figures.read text
      let c := clamp v
      n.text = text ∧ n.Proper ∧ n.Trimmed ∧ (n.power = none ↔ c == 0 ∨ 1e-6 ≤ c.abs) ∧
      (n.negative = true ↔ c < 0) ∧ (∀ l, n.value = (Figures.read (Decimal.text l c)).value) ∧
      Read.double text = ⟨if c == 0 then 0 else c, none⟩) ∧
    (-bound ≤ clamp v ∧ clamp v ≤ bound) ∧ clamp (clamp v) = clamp v ∧
    ∀ w, v ≤ w → clamp v ≤ clamp w := by
  refine ⟨⟨number (clamp v), rfl, ?_⟩, clamp_within v, clamp_idempotent v, fun w => clamp_monotone⟩
  obtain ⟨negative, m, e, finite, -⟩ := view_clamp v
  obtain ⟨n, proper, trimmed, text, power, sign, value⟩ := number_figures finite
  have read : Figures.read (number (clamp v)) = n := by rw [← text, Figures.read_text proper]
  have small := clamp_lt_huge v
  dsimp only
  rw [read]
  refine ⟨text, proper, trimmed, ?_, sign, fun l => ?_, ?_⟩
  · rw [power, and_iff_left small]
    rfl
  · rw [value, value_text finite]
  · exact double_number v

theorem literal_minus_tiny :
    literal (-2.5e-10) = "float(-2.5e-10)" ∧ -infinity ≤ (-2.5e-10 : Float) ∧
      clamp (-infinity) ≤ clamp (-2.5e-10) :=
  ⟨by decide +kernel, by decide +kernel,
    (literal_denotes (-infinity)).2.2.2 (-2.5e-10) (by decide +kernel)⟩

end Shader

end DistanceField
