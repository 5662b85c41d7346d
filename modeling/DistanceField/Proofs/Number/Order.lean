import DistanceField.Proofs.Number.Whole

/-! The order of doubles is the order of the numbers they stand for, with the infinities at the ends.
Numbers of larger exponent are larger, since all digits are there; and so are all fractions that are
rounded to them. Keeping a number within the bounds of written numbers keeps the order. -/
namespace DistanceField.Double

open Float.Model Float.Model.UnpackedFloat

section Pairs

variable {m k : Nat} {e f : Int}

theorem lex_lt (fits : Fits m e) (other : Fits k f) (first : e < f ∨ e = f ∧ m < k) :
    (m : ℚ) * 2 ^ e < k * 2 ^ f := by
  have unit := two_zpow_pos e
  rcases first with less | ⟨rfl, less⟩
  · have full : (2 : ℚ) ^ (52 : Int) ≤ k := by
      rcases other.full with full | least
      · exact_mod_cast full
      · exact absurd fits.least (by omega)
    have small : (m : ℚ) < 2 ^ (53 : Int) := by exact_mod_cast fits.small
    calc (m : ℚ) * 2 ^ e < 2 ^ (53 : Int) * 2 ^ e := by gcongr
      _ = 2 ^ (52 : Int) * 2 ^ (e + 1) := by
          rw [← zpow_add₀ two_ne_zero, ← zpow_add₀ two_ne_zero]
          congr 1
          omega
      _ ≤ k * 2 ^ f := by
          gcongr
          · norm_num
          · omega
  · gcongr

theorem compare_lex (fits : Fits m e) (other : Fits k f) :
    (compare e f).then (compare m k) = compare ((m : ℚ) * 2 ^ e) (k * 2 ^ f) := by
  rcases lt_trichotomy e f with less | rfl | more
  · rw [compare_lt_iff_lt.mpr less, compare_lt_iff_lt.mpr (lex_lt fits other (.inl less))]
    rfl
  · rw [compare_eq_iff_eq.mpr rfl, Ordering.eq_then]
    rcases lt_trichotomy m k with less | rfl | more
    · rw [compare_lt_iff_lt.mpr less, compare_lt_iff_lt.mpr (lex_lt fits other (.inr ⟨rfl, less⟩))]
    · rw [compare_eq_iff_eq.mpr rfl, compare_eq_iff_eq.mpr rfl]
    · rw [compare_gt_iff_gt.mpr more, compare_gt_iff_gt.mpr (lex_lt other fits (.inr ⟨rfl, more⟩))]
  · rw [compare_gt_iff_gt.mpr more, compare_gt_iff_gt.mpr (lex_lt other fits (.inl more))]
    rfl

theorem lex_of_lt (fits : Fits m e) (other : Fits k f) (less : (m : ℚ) * 2 ^ e < k * 2 ^ f) :
    e < f ∨ e = f ∧ m < k := by
  by_contra first
  rcases (by omega : f < e ∨ f = e ∧ k < m ∨ f = e ∧ k = m) with more | more | ⟨rfl, rfl⟩
  · exact lt_asymm less (lex_lt other fits (.inl more))
  · exact lt_asymm less (lex_lt other fits (.inr more))
  · exact lt_irrefl _ less

theorem apart (fits : Fits m e) (other : Fits k f) (less : (m : ℚ) * 2 ^ e < k * 2 ^ f) :
    (4 * m + 2 : ℚ) * 2 ^ e ≤ (4 * k - gap k f) * 2 ^ f := by
  have unit := two_zpow_pos e
  have near := gap_le_two k f
  rcases lex_of_lt fits other less with less | ⟨rfl, fewer⟩
  · -- the digits of the larger one weigh twice as much, at least
    have double : (2 : ℚ) ^ e * 2 ≤ 2 ^ f := by
      rw [← zpow_add_one₀ two_ne_zero]
      exact zpow_le_zpow_right₀ one_le_two (by omega)
    have small : (m : ℚ) + 1 ≤ 2 ^ 53 := by exact_mod_cast fits.small
    have high : (2 : ℚ) ^ 55 - 2 ≤ (4 * k - gap k f) * 2 := by
      rcases other.full with full | least
      · by_cases edge : k = 2 ^ 52
        · have one : gap k f = 1 := by
            have above : f > -1074 := lt_of_le_of_lt fits.least less
            rw [gap, if_pos (by simp [edge, pow2, above])]
          rw [one, edge]
          norm_num
        · have more : (2 : ℚ) ^ 52 + 1 ≤ k := by exact_mod_cast Nat.lt_of_le_of_ne full (Ne.symm edge)
          linarith
      · exact absurd fits.least (by omega)
    calc (4 * m + 2 : ℚ) * 2 ^ e ≤ (4 * k - gap k f) * 2 * 2 ^ e := by
          gcongr
          linarith
      _ = (4 * k - gap k f) * (2 ^ e * 2) := by ring
      _ ≤ (4 * k - gap k f) * 2 ^ f := by
          gcongr
          linarith
  · have step : (m : ℚ) + 1 ≤ k := by exact_mod_cast fewer
    gcongr
    linarith

end Pairs

/-- Where a number lies; the infinities lie beyond all others. -/
def View.place : View → ℚ
  | .nan => 0
  | .infinite negative => if negative then -2 ^ 1024 else 2 ^ 1024
  | .finite negative m e => if negative then -(m * 2 ^ e) else m * 2 ^ e

theorem place_lt {m : Nat} {e : Int} (fits : Fits m e) : (m : ℚ) * 2 ^ e < 2 ^ 1024 := by
  have unit := two_zpow_pos e
  have small : (m : ℚ) < 2 ^ (53 : Int) := by exact_mod_cast fits.small
  calc (m : ℚ) * 2 ^ e < 2 ^ (53 : Int) * 2 ^ e := by gcongr
    _ ≤ 2 ^ (53 : Int) * 2 ^ (971 : Int) := by
        gcongr
        · norm_num
        · exact fits.most
    _ = 2 ^ 1024 := by
        rw [← zpow_add₀ two_ne_zero]
        rfl

theorem compare_neg (x y : ℚ) : compare (-x) (-y) = (compare x y).swap := by
  rcases lt_trichotomy x y with less | rfl | more
  · rw [compare_lt_iff_lt.mpr less, compare_gt_iff_gt.mpr (neg_lt_neg less)]
    rfl
  · rw [compare_eq_iff_eq.mpr rfl, compare_eq_iff_eq.mpr rfl]
    rfl
  · rw [compare_gt_iff_gt.mpr more, compare_lt_iff_lt.mpr (neg_lt_neg more)]
    rfl

theorem compare_finite {m k : Nat} {e f : Int} (fits : Fits m e) (other : Fits k f) (s t : Bool) :
    (unpacked s m e).compare (unpacked t k f) =
      some (compare (View.finite s m e).place (View.finite t k f).place) := by
  have here := two_zpow_pos e
  have there := two_zpow_pos f
  by_cases zero : m = 0
  · have middle : (View.finite s m e).place = 0 := by simp [View.place, zero]
    rw [unpacked, dif_pos zero, middle]
    by_cases none : k = 0
    · have same : (View.finite t k f).place = 0 := by simp [View.place, none]
      rw [unpacked, dif_pos none, same]
      exact congrArg some (compare_eq_iff_eq.mpr rfl).symm
    · have positive : (0 : ℚ) < k * 2 ^ f := by positivity
      rw [unpacked_positive none]
      cases t with
      | false => exact congrArg some (compare_lt_iff_lt.mpr positive).symm
      | true => exact congrArg some (compare_gt_iff_gt.mpr (neg_neg_of_pos positive)).symm
  · have above : (0 : ℚ) < m * 2 ^ e := by positivity
    have below := neg_neg_of_pos above
    rw [unpacked_positive zero]
    by_cases none : k = 0
    · have middle : (View.finite t k f).place = 0 := by simp [View.place, none]
      rw [unpacked, dif_pos none, middle]
      cases s with
      | false => exact congrArg some (compare_gt_iff_gt.mpr above).symm
      | true => exact congrArg some (compare_lt_iff_lt.mpr below).symm
    · have positive : (0 : ℚ) < k * 2 ^ f := by positivity
      have negative := neg_neg_of_pos positive
      rw [unpacked_positive none]
      cases s <;> cases t
      · exact congrArg some (compare_lex fits other)
      · exact congrArg some (compare_gt_iff_gt.mpr (negative.trans above)).symm
      · exact congrArg some (compare_lt_iff_lt.mpr (below.trans positive)).symm
      · exact congrArg some (by rw [compare_lex fits other]; exact (compare_neg _ _).symm)

theorem abs_place_lt {m : Nat} {e : Int} (fits : Fits m e) (s : Bool) :
    -2 ^ 1024 < (View.finite s m e).place ∧ (View.finite s m e).place < 2 ^ 1024 := by
  have most := place_lt fits
  have least : (0 : ℚ) ≤ m * 2 ^ e := mul_nonneg (Nat.cast_nonneg m) (two_zpow_pos e).le
  have wide : (0 : ℚ) < 2 ^ 1024 := by positivity
  cases s
  · exact ⟨(neg_neg_of_pos wide).trans_le least, most⟩
  · exact ⟨neg_lt_neg most, (neg_nonpos_of_nonneg least).trans_lt wide⟩

theorem compare_infinity_finite {m : Nat} {e : Int} (fits : Fits m e) (s t : Bool) :
    (View.infinite s).unpacked.compare (unpacked t m e) =
      some (compare (View.infinite s).place (View.finite t m e).place) := by
  obtain ⟨above, below⟩ := abs_place_lt fits t
  unfold unpacked
  cases s with
  | false =>
    rw [show compare (View.infinite false).place (View.finite t m e).place = .gt from
      compare_gt_iff_gt.mpr below]
    split <;> rfl
  | true =>
    rw [show compare (View.infinite true).place (View.finite t m e).place = .lt from
      compare_lt_iff_lt.mpr above]
    split <;> rfl

theorem compare_finite_infinity {m : Nat} {e : Int} (fits : Fits m e) (s t : Bool) :
    (unpacked t m e).compare (View.infinite s).unpacked =
      some (compare (View.finite t m e).place (View.infinite s).place) := by
  obtain ⟨above, below⟩ := abs_place_lt fits t
  unfold unpacked
  cases s with
  | false =>
    rw [show compare (View.finite t m e).place (View.infinite false).place = .lt from
      compare_lt_iff_lt.mpr below]
    split <;> rfl
  | true =>
    rw [show compare (View.finite t m e).place (View.infinite true).place = .gt from
      compare_gt_iff_gt.mpr above]
    split <;> rfl

theorem compare_infinity (s t : Bool) :
    (View.infinite s).unpacked.compare (View.infinite t).unpacked =
      some (compare (View.infinite s).place (View.infinite t).place) := by
  have wide : (-2 ^ 1024 : ℚ) < 2 ^ 1024 := by norm_num
  cases s <;> cases t
  · exact congrArg some (compare_eq_iff_eq.mpr rfl).symm
  · exact congrArg some (compare_gt_iff_gt.mpr wide).symm
  · exact congrArg some (compare_lt_iff_lt.mpr wide).symm
  · exact congrArg some (compare_eq_iff_eq.mpr rfl).symm

theorem compare_place {v w : Float} (number : view v ≠ .nan) (other : view w ≠ .nan) :
    (view v).unpacked.compare (view w).unpacked =
      some (compare (view v).place (view w).place) := by
  cases here : view v with
  | nan => exact absurd here number
  | infinite s =>
    cases there : view w with
    | nan => exact absurd there other
    | infinite t => exact compare_infinity s t
    | finite t k f => exact compare_infinity_finite (fits_of_view there) s t
  | finite s m e =>
    cases there : view w with
    | nan => exact absurd there other
    | infinite t => exact compare_finite_infinity (fits_of_view here) t s
    | finite t k f => exact compare_finite (fits_of_view here) (fits_of_view there) s t

theorem compare_nan {v w : Float} (none : view v = .nan ∨ view w = .nan) :
    (view v).unpacked.compare (view w).unpacked = .none := by
  rcases none with is | is
  · rw [is]
    rfl
  · rw [is]
    cases view v with
    | nan | infinite => rfl
    | finite s m e =>
      show (unpacked s m e).compare .notANumber = none
      unfold unpacked
      split <;> rfl

theorem lt_iff_place (v w : Float) :
    v < w ↔ view v ≠ .nan ∧ view w ≠ .nan ∧ (view v).place < (view w).place := by
  rw [lt_iff]
  by_cases none : view v = .nan ∨ view w = .nan
  · rw [compare_nan none]
    exact iff_of_false (by simp) (by tauto)
  · obtain ⟨number, other⟩ := not_or.mp none
    rw [compare_place number other, Option.some_inj, compare_lt_iff_lt]
    tauto

theorem le_iff_place (v w : Float) :
    v ≤ w ↔ view v ≠ .nan ∧ view w ≠ .nan ∧ (view v).place ≤ (view w).place := by
  have unfolded : v ≤ w ↔ ((view v).unpacked.compare (view w).unpacked).any (·.isLE) = true := by
    rw [← unpack_eq_view, ← unpack_eq_view]
    show decide (v.toModel.le w.toModel = true) = true ↔ _
    rw [decide_eq_true_iff]
    rfl
  rw [unfolded]
  by_cases none : view v = .nan ∨ view w = .nan
  · rw [compare_nan none]
    exact iff_of_false (by simp) (by tauto)
  · obtain ⟨number, other⟩ := not_or.mp none
    rw [compare_place number other, Option.any_some, ← Ordering.ne_gt_iff_isLE, ← ne_eq,
      compare_le_iff_le]
    tauto

def View.unsigned : View → View
  | .nan => .nan
  | .infinite _ => .infinite false
  | .finite _ m e => .finite false m e

theorem view_abs (v : Float) : view v.abs = (view v).unsigned := by
  have h : v.abs = assemble (view v).unpacked.abs := by
    rw [← unpack_eq_view]
    rfl
  rw [h]
  cases hv : view v with
  | nan => exact view_assemble_nan
  | infinite negative => exact view_assemble_infinity false
  | finite negative m e =>
    have positive : (unpacked negative m e).abs = unpacked false m e := by
      unfold unpacked
      split <;> rfl
    rw [View.unpacked, positive, view_assemble_finite (fits_of_view hv)]
    rfl

theorem isInf_finite {v : Float} {negative : Bool} {m : Nat} {e : Int}
    (finite : view v = .finite negative m e) : v.isInf = false := by
  show v.toModel.unpack.isInf = false
  rw [unpack_eq_view, finite, View.unpacked, unpacked]
  split <;> rfl

section Clamp

theorem place_bound : (view bound).place = 1000000 := by
  rw [view_bound]
  norm_num [View.place]

theorem place_minus_bound : (view (-bound)).place = -1000000 := by
  rw [view_neg, view_bound]
  norm_num [View.negate, View.place]

theorem place_zero : (view 0).place = 0 := by
  rw [show view 0 = .finite false 0 (-1074) from rfl]
  norm_num [View.place]

theorem bound_number : view bound ≠ .nan := by simp [view_bound]

theorem minus_bound_number : view (-bound) ≠ .nan := by simp [view_neg, view_bound, View.negate]

theorem clamp_nan {v : Float} (none : view v = .nan) : clamp v = 0 := by
  rw [clamp, if_pos ((isNaN_iff v).mpr none)]

theorem clamp_number (v : Float) : view (clamp v) ≠ .nan := by
  unfold clamp
  split
  · exact View.noConfusion
  split
  · exact bound_number
  split
  · exact minus_bound_number
  · next number _ _ => rwa [isNaN_iff] at number

/-- Between the bounds nothing changes, and beyond them there is the bound. -/
theorem place_clamp {v : Float} (number : view v ≠ .nan) :
    (view (clamp v)).place = max (-1000000) (min 1000000 (view v).place) := by
  unfold clamp
  rw [if_neg (by rwa [isNaN_iff])]
  split
  · next above =>
    obtain ⟨-, -, above⟩ := (lt_iff_place _ _).mp above
    rw [place_bound] at above ⊢
    rw [min_eq_left above.le]
    norm_num
  split
  · next below =>
    obtain ⟨-, -, below⟩ := (lt_iff_place _ _).mp below
    rw [place_minus_bound] at below ⊢
    rw [max_eq_left ((min_le_right _ _).trans below.le)]
  · next above below =>
    have most : ¬ (1000000 : ℚ) < (view v).place := by
      rw [gt_iff_lt, lt_iff_place, place_bound] at above
      exact fun more => above ⟨bound_number, number, more⟩
    have least : ¬ (view v).place < -1000000 := by
      rw [lt_iff_place, place_minus_bound] at below
      exact fun less => below ⟨number, minus_bound_number, less⟩
    rw [min_eq_right (not_lt.mp most), max_eq_right (not_lt.mp least)]

theorem place_clamp_within (v : Float) :
    -1000000 ≤ (view (clamp v)).place ∧ (view (clamp v)).place ≤ 1000000 := by
  by_cases none : view v = .nan
  · rw [clamp_nan none, place_zero]
    norm_num
  · rw [place_clamp none]
    exact ⟨le_max_left _ _, max_le (by norm_num) (min_le_left _ _)⟩

theorem view_clamp (v : Float) : ∃ negative m e, view (clamp v) = .finite negative m e ∧
    (m : ℚ) * 2 ^ e ≤ 1000000 := by
  obtain ⟨least, most⟩ := place_clamp_within v
  have far : (1000000 : ℚ) < 2 ^ 1024 :=
    lt_of_lt_of_le (by norm_num : (1000000 : ℚ) < 2 ^ 20) (pow_le_pow_right₀ one_le_two (by omega))
  cases seen : view (clamp v) with
  | nan => exact absurd seen (clamp_number v)
  | infinite negative =>
    rw [seen] at least most
    cases negative with
    | false => exact absurd most (not_le.mpr far)
    | true => exact absurd least (not_le.mpr (neg_lt_neg far))
  | finite negative m e =>
    rw [seen] at least most
    refine ⟨negative, m, e, rfl, ?_⟩
    cases negative with
    | false => exact most
    | true => exact neg_le_neg_iff.mp least

theorem clamp_within (v : Float) : -bound ≤ clamp v ∧ clamp v ≤ bound := by
  obtain ⟨least, most⟩ := place_clamp_within v
  rw [le_iff_place, le_iff_place, place_bound, place_minus_bound]
  exact ⟨⟨minus_bound_number, clamp_number v, least⟩, clamp_number v, bound_number, most⟩

theorem clamp_idempotent (v : Float) : clamp (clamp v) = clamp v := by
  obtain ⟨least, most⟩ := place_clamp_within v
  rw [clamp.eq_def (clamp v), if_neg (by rw [isNaN_iff]; exact clamp_number v), if_neg, if_neg]
  · rw [lt_iff_place, place_minus_bound]
    exact fun less => not_lt.mpr least less.2.2
  · rw [gt_iff_lt, lt_iff_place, place_bound]
    exact fun more => not_lt.mpr most more.2.2

theorem clamp_monotone {v w : Float} (before : v ≤ w) : clamp v ≤ clamp w := by
  obtain ⟨number, other, before⟩ := (le_iff_place v w).mp before
  rw [le_iff_place, place_clamp number, place_clamp other]
  exact ⟨clamp_number v, clamp_number w, max_le_max le_rfl (min_le_min le_rfl before)⟩

end Clamp

end DistanceField.Double
