import DistanceField.Proofs.Number.Reading
import DistanceField.Number.Scalar

/-! Natural numbers as doubles, and how doubles are compared. -/
namespace DistanceField.Double

open Float.Model Float.Model.UnpackedFloat

theorem view_mul_one {v u : Float} {m : Nat} {e : Int} (finite : view v = .finite false m e)
    (unit : view u = .finite false (2 ^ 52) (-52)) (positive : m ≠ 0) :
    view (v * u) = .finite false m e := by
  have fits := fits_of_view finite
  have product : UnpackedFloat.mul .binary64 (unpacked false m e) (unpacked false (2 ^ 52) (-52)) =
      unpacked false m e := by
    rw [unpacked_positive positive, unpacked_positive (by decide), UnpackedFloat.mul]
    exact round_exact fits positive .positive 52
  rw [mul_eq, finite, unit, View.unpacked, View.unpacked, product, view_assemble_finite fits]

/-- The binary digits of a natural number, moved up to full length. -/
def widened (n : Nat) : Nat := n * 2 ^ (52 - n.log2)

theorem fits_widened {n : Nat} (some : n ≠ 0) (small : n < 2 ^ 53) :
    Fits (widened n) (-(52 - n.log2 : Nat)) := by
  have short : n.log2 < 53 := (Nat.log2_lt some).mpr small
  have lower : 2 ^ n.log2 ≤ n := Nat.log2_self_le some
  have upper : n < 2 ^ (n.log2 + 1) := Nat.lt_log2_self
  refine ⟨?_, by omega, by omega, .inl ?_⟩
  · calc widened n < 2 ^ (n.log2 + 1) * 2 ^ (52 - n.log2) :=
          Nat.mul_lt_mul_of_pos_right upper (Nat.two_pow_pos _)
      _ = 2 ^ 53 := by
          rw [← Nat.pow_add]
          congr 1
          omega
  · calc 2 ^ 52 = 2 ^ n.log2 * 2 ^ (52 - n.log2) := by
          rw [← Nat.pow_add]
          congr 1
          omega
      _ ≤ widened n := Nat.mul_le_mul_right _ lower

theorem widened_ne_zero {n : Nat} (some : n ≠ 0) : widened n ≠ 0 :=
  Nat.mul_ne_zero some (Nat.two_pow_pos _).ne'

theorem ofNat_widened {n : Nat} (some : n ≠ 0) (small : n < 2 ^ 53) :
    UnpackedFloat.ofNat .binary64 n = unpacked false (widened n) (-(52 - n.log2 : Nat)) := by
  have short : n.log2 < 53 := (Nat.log2_lt some).mpr small
  have sign : compare (n : Int) 0 = .gt := by
    rw [Int.compare_eq_gt]
    omega
  have target : Format.binary64.targetExponent (totalExponent n 0) = -(52 - n.log2 : Nat) := by
    show max ((n.log2 : Int) + 1 + 0 - 53) (-1074) = _
    omega
  have moved : decreaseExponent n 0 (-(52 - n.log2 : Nat)) =
      (widened n, (-(52 - n.log2 : Nat) : Int)) := by
    have amount : ((0 : Int) - (-(52 - n.log2 : Nat))).toNat = 52 - n.log2 := by omega
    simp only [decreaseExponent, amount, Nat.shiftLeft_eq, widened]
    congr 1
    omega
  have kept := round_exact (fits_widened some small) (widened_ne_zero some) (signOf false) 0
  rw [UnpackedFloat.ofNat, UnpackedFloat.ofInt, UnpackedFloat.normalize, sign]
  dsimp only
  rw [Int.toNat_natCast, UnpackedFloat.round, target, moved, unpacked_positive (widened_ne_zero some)]
  simp only [Nat.pow_zero, Nat.mul_one, Nat.cast_zero, sub_zero] at kept
  exact kept

theorem view_ofNat {n : Nat} (some : n ≠ 0) (small : n < 2 ^ 53) :
    view (Float.ofNat n) = .finite false (widened n) (-(52 - n.log2 : Nat)) := by
  have word : n.toUInt64.toNat = n := Nat.mod_eq_of_lt (by omega)
  have finite : view n.toUInt64.toFloat = .finite false (widened n) (-(52 - n.log2 : Nat)) := by
    show view (assemble (UnpackedFloat.ofNat .binary64 n.toUInt64.toNat)) = _
    rw [word, ofNat_widened some small, view_assemble_finite (fits_widened some small)]
  have unit : view (Float.ofBits 0x3FF0000000000000) = .finite false (2 ^ 52) (-52) := rfl
  have product : Float.ofNat n = n.toUInt64.toFloat * Float.ofBits 0x3FF0000000000000 := by
    show Float.ofScientific n false 0 = _
    rw [Float.ofScientific, dif_pos ⟨small, by decide⟩]
    rfl
  rw [product, view_mul_one finite unit (widened_ne_zero some)]

theorem rounds_exact {m : Nat} {e : Int} {x : ℚ} (same : m * 2 ^ e = x) : Rounds m e x := by
  have unit := two_zpow_pos e
  have positive : (0 : ℚ) < gap m e := by
    unfold gap
    split <;> norm_num
  have below : (4 * m - gap m e) * 2 ^ e < 4 * x := by nlinarith
  have above : 4 * x < (4 * m + 2) * 2 ^ e := by nlinarith
  exact ⟨below.le, above.le, fun _ => ⟨below, above⟩⟩

theorem widened_exact (n : Nat) : (widened n : ℚ) * 2 ^ (-(52 - n.log2 : Nat) : Int) = n := by
  rw [widened, Nat.cast_mul, Nat.cast_pow, Nat.cast_ofNat, zpow_neg, zpow_natCast, mul_assoc,
    mul_inv_cancel₀ (by positivity), mul_one]

theorem ofDecimal_whole {n : Nat} (small : n < 2 ^ 53) : Read.ofDecimal n 0 = Float.ofNat n := by
  by_cases zero : n = 0
  · subst zero
    rfl
  · have rounds : Rounds (widened n) (-(52 - n.log2 : Nat)) (n * 10 ^ (0 : Int)) :=
      rounds_exact (by rw [widened_exact, zpow_zero, mul_one])
    refine view_injective ?_
    rw [Read.view_ofDecimal (widened_ne_zero zero) (fits_widened zero small) rounds,
      view_ofNat zero small]

theorem lt_iff (v w : Float) :
    v < w ↔ (view v).unpacked.compare (view w).unpacked = some .lt := by
  rw [← unpack_eq_view, ← unpack_eq_view, ← beq_iff_eq]
  show decide (v.toModel.lt w.toModel = true) = true ↔ _
  rw [decide_eq_true_iff]
  rfl

theorem isNaN_iff (v : Float) : v.isNaN = true ↔ view v = .nan := by
  show v.toModel.unpack.isNaN = true ↔ _
  rw [unpack_eq_view]
  cases view v with
  | nan => exact iff_of_true rfl rfl
  | infinite negative => exact iff_of_false Bool.false_ne_true (by simp)
  | finite negative m e =>
    refine iff_of_false ?_ (by simp)
    rw [View.unpacked, unpacked]
    split <;> exact Bool.false_ne_true

theorem eq_zero_iff {v : Float} {negative : Bool} {m : Nat} {e : Int}
    (finite : view v = .finite negative m e) : (v == 0) = (m == 0) := by
  show (v.toModel.unpack.compare (0 : Float).toModel.unpack == some .eq) = _
  rw [unpack_eq_view, finite, unpack_eq_view, show view 0 = .finite false 0 (-1074) from rfl]
  by_cases zero : m = 0
  · subst zero
    cases negative <;> rfl
  · rw [View.unpacked, unpacked_positive zero, beq_eq_false_iff_ne.mpr zero]
    cases negative <;> rfl

theorem view_bound : view bound = .finite false (1000000 * 2 ^ 33) (-33) :=
  view_ofNat (n := 1000000) (by decide) (by decide)

end DistanceField.Double
