import DistanceField.Proofs.Lists
import DistanceField.Proofs.Number.Literal
import DistanceField.Proofs.Number.Order
import DistanceField.Shader.Literal

/-! Which numbers are written with an exponent. A double lies above a power of ten that is the shortest
text of another double exactly if its own shortest digits do, for they lie on the same side of it. So the
choice that is made by magnitude is the one that the digits tell. Where there is an exponent, cutting the
zeros off its text leaves the exponent without padding. -/
namespace DistanceField

namespace Decimal

open Double Read

theorem lex_eq {m k : Nat} {e f : Int} (fits : Fits m e) (other : Fits k f)
    (same : (m : ℚ) * 2 ^ e = k * 2 ^ f) : m = k ∧ e = f := by
  by_contra differs
  rcases (by omega : (e < f ∨ e = f ∧ m < k) ∨ (f < e ∨ f = e ∧ k < m)) with first | first
  · exact (lex_lt fits other first).ne same
  · exact (lex_lt other fits first).ne same.symm

/-- The pair that a power of ten is rounded to, none of its ends being that power, and whose shortest
digits are that power. -/
structure Stands (k : Nat) (f t : Int) : Prop where
  fits : Fits k f
  above : (4 * k - gap k f : ℚ) * 2 ^ f < 4 * 10 ^ t
  below : (4 * 10 ^ t : ℚ) < (4 * k + 2) * 2 ^ f
  itself : (shortest k f).exponent = t

theorem Stands.reached {m k : Nat} {e f t : Int} (stands : Stands k f t) (positive : m ≠ 0)
    (fits : Fits m e) : (k : ℚ) * 2 ^ f ≤ m * 2 ^ e ↔ t ≤ (shortest m e).exponent := by
  obtain ⟨other, above, below, itself⟩ := stands
  have rounds := shortest_rounds positive fits
  obtain ⟨low, high⟩ := shortest_between positive fits
  have powers {a b : Int} (less : (10 : ℚ) ^ a < 10 ^ b) : a < b :=
    (zpow_lt_zpow_iff_right₀ (by norm_num)).mp less
  rcases lt_trichotomy ((m : ℚ) * 2 ^ e) (k * 2 ^ f) with less | same | more
  · have short : (shortest m e).value < 10 ^ t := by
      linarith [rounds.upper, apart fits other less]
    exact iff_of_false (not_le.mpr less) (not_le.mpr (powers (low.trans_lt short)))
  · obtain ⟨rfl, rfl⟩ := lex_eq fits other same
    exact iff_of_true le_rfl itself.ge
  · have long : (10 : ℚ) ^ t < (shortest m e).value := by
      linarith [rounds.lower, apart other fits more]
    exact iff_of_true more.le (Int.lt_add_one_iff.mp (powers (long.trans high)))

theorem stands_tiny : Stands 4722366482869645 (-72) (-6) := by
  refine ⟨⟨by norm_num, by norm_num, by norm_num, .inl (by norm_num)⟩, ?_, ?_, by decide +kernel⟩
  · norm_num [gap, pow2]
  · norm_num

theorem stands_huge : Stands 7629394531250000 17 21 := by
  refine ⟨⟨by norm_num, by norm_num, by norm_num, .inl (by norm_num)⟩, ?_, ?_, by decide +kernel⟩
  · norm_num [gap, pow2]
  · norm_num

section Layouts

variable {l : Layout} {d : Decimal}

theorem write_within (within : l.least ≤ d.exponent ∧ d.exponent < l.limit) :
    l.write d = d.positional := by
  rw [Layout.write, if_neg (by simpa using within)]

theorem write_beyond (beyond : d.exponent < l.least ∨ l.limit ≤ d.exponent) :
    l.write d = d.scientific l.width := by
  rw [Layout.write, if_pos (by simpa using beyond)]

end Layouts

theorem padding_one (n : Nat) : zeros (1 - (Bytes.ofNat n).length) = [] := by
  have long : 0 < (Bytes.ofNat n).length := List.length_pos_iff.mpr (by simp [Bytes.ofNat])
  rw [Nat.sub_eq_zero_of_le long]
  rfl

end Decimal

namespace Shader

open Double Decimal Read

theorem cut_append {front rest : Bytes} (free : 101 ∉ front) :
    Bytes.cut 101 (front ++ 101 :: rest) = some (front, rest) := by
  have other : ∀ c ∈ front, (c != 101) = true := by
    intro c found
    rw [bne_iff_ne]
    rintro rfl
    exact free found
  obtain ⟨taken, left⟩ := @takeWhile_stop _ _ _ (101 :: rest) other (by simp)
  rw [Bytes.cut, left, taken]

/-- Only the zeros in front of the exponent go. -/
theorem trimmed_exponent {front : Bytes} {sign : UInt8} (free : 101 ∉ front) (k : Nat) {n : Nat}
    (positive : n ≠ 0) :
    trimmed (front ++ 101 :: sign :: (zeros k ++ Bytes.ofNat n)) =
      front ++ 101 :: sign :: Bytes.ofNat n := by
  have bare : (zeros k ++ Bytes.ofNat n).dropWhile (· == 48) = Bytes.ofNat n :=
    (takeWhile_stop (fun c found => by simp [List.eq_of_mem_replicate found])
      fun c first => by simpa using ofNat_head positive c first).2
  rw [trimmed, cut_append free]
  exact congrArg (fun ds => front ++ 101 :: sign :: ds) bare

theorem digits_free {ds : Bytes} (all : AllDigits ds) : 101 ∉ ds := by
  intro found
  exact absurd (all _ found) (by decide)

theorem spelled_free {whole part : Bytes} (all : AllDigits whole) (more : AllDigits part) :
    101 ∉ spelled whole part := by
  have front := digits_free all
  unfold spelled
  split
  · exact front
  · simp [front, digits_free more]

theorem trimmed_scientific {d : Decimal} (all : AllDigits d.digits) (some : d.digits ≠ [])
    (scaled : d.exponent ≠ 0) (negative : Bool) :
    trimmed (signed negative (d.scientific 2)) = signed negative (d.scientific 1) := by
  obtain ⟨c, part, digits, text, -⟩ := scientific_spelled d some 2
  obtain ⟨c', part', digits', bare, -⟩ := scientific_spelled d some 1
  cases digits.symm.trans digits'
  rw [text, bare, padding_one, List.nil_append]
  rw [digits] at all
  have free : 101 ∉ signed negative (spelled [c] part) := by
    have inside := spelled_free (all.take 1) (all.drop 1)
    cases negative with
    | false => exact inside
    | true => exact List.not_mem_cons_of_ne_of_not_mem (by decide) inside
  have trim := @trimmed_exponent _ (if d.exponent < 0 then 45 else 43) free
    (2 - (Bytes.ofNat d.exponent.natAbs).length) _ (Int.natAbs_ne_zero.mpr scaled)
  cases negative <;> exact trim

theorem view_tiny : view tiny = .finite false 4722366482869645 (-72) := rfl

theorem view_huge : view huge = .finite false 7629394531250000 17 := rfl

section Finite

variable {v : Float} {negative : Bool} {m : Nat} {e : Int}
  (finite : view v = .finite negative m e)

include finite

theorem fixed_finite : fixed v = signed negative (shortest m e).positional := by
  rw [fixed, finite]

theorem unsigned_finite : view v.abs = .finite false m e := by
  rw [view_abs, finite]
  rfl

theorem tiny_le_abs (positive : m ≠ 0) : tiny ≤ v.abs ↔ -6 ≤ (shortest m e).exponent := by
  rw [← stands_tiny.reached positive (fits_of_view finite), le_iff_place, view_tiny,
    unsigned_finite finite]
  simp [View.place]

theorem abs_lt_huge (positive : m ≠ 0) : v.abs < huge ↔ (shortest m e).exponent < 21 := by
  rw [← not_le, ← stands_huge.reached positive (fits_of_view finite), not_le, lt_iff_place, view_huge,
    unsigned_finite finite]
  simp [View.place]

theorem number_finite (positive : m ≠ 0) : number v = text plain v := by
  have fits := fits_of_view finite
  have zero : (v == 0) = false := by
    rw [eq_zero_iff finite]
    simpa using positive
  have nan : v.isNaN = false := by
    rw [Bool.eq_false_iff, Ne, isNaN_iff, finite]
    exact View.noConfusion
  rw [number, zero, nan, isInf_finite finite, if_neg (by decide), text_finite finite, text_finite finite,
    fixed_finite finite]
  by_cases within : -6 ≤ (shortest m e).exponent ∧ (shortest m e).exponent < 21
  · rw [if_pos (by simpa [tiny_le_abs finite positive, abs_lt_huge finite positive] using within),
      write_within within]
  · have beyond : (shortest m e).exponent < -6 ∨ 21 ≤ (shortest m e).exponent := by omega
    have always : (shortest m e).exponent < 0 ∨ 0 ≤ (shortest m e).exponent := by omega
    rw [if_neg (by simpa [tiny_le_abs finite positive, abs_lt_huge finite positive] using within),
      @write_beyond plain _ beyond, @write_beyond exponential _ always]
    exact trimmed_scientific isDigit_of_mem_shortest (shortest_filled positive fits) (by omega) negative

end Finite

theorem number_clamp (v : Float) :
    number (Scalar.clamp v) =
      if Scalar.clamp v == 0 then [48] else text plain (Scalar.clamp v) := by
  obtain ⟨negative, m, e, finite, -⟩ := view_clamp v
  change view (Scalar.clamp v) = _ at finite
  by_cases zero : m = 0
  · have is : (Scalar.clamp v == 0) = true := by simpa [eq_zero_iff finite] using zero
    rw [number, is]
    rfl
  · have other : (Scalar.clamp v == 0) = false := by simpa [eq_zero_iff finite] using zero
    rw [other, number_finite finite zero]
    rfl

end Shader

end DistanceField
