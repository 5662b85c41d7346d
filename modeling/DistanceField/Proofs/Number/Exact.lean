import Mathlib
import DistanceField.Number.Scalar

/-! Numbers as doubles have them but without rounding: the reals, the two infinities and
not-a-number. There is one zero, and one divided by it is infinite. -/
namespace DistanceField

-- doubles and distances are both built on two, so its literals share one proof that it is no smaller
instance two_atLeastTwo : Nat.AtLeastTwo 2 := inferInstance

inductive Exact where
  | real (v : ℝ)
  | infinite (negative : Bool)
  | nan

/-- Sines and cosines of angles in degrees. Of them it matters only that they lie on the unit
circle. -/
class Turning where
  sine : ℝ → ℝ
  cosine : ℝ → ℝ
  unit : ∀ d, sine d ^ 2 + cosine d ^ 2 = 1

noncomputable section

@[reducible] def Turning.degrees : Turning where
  sine d := Real.sin (d * Real.pi / 180)
  cosine d := Real.cos (d * Real.pi / 180)
  unit _ := Real.sin_sq_add_cos_sq _

namespace Exact

def ofDouble (v : Float) : Exact :=
  match Double.view v with
  | .nan => nan
  | .infinite negative => infinite negative
  | .finite negative m e => real ((if negative then -1 else 1) * (m * 2 ^ e))

def neg : Exact → Exact
  | real a => real (-a)
  | infinite negative => infinite !negative
  | nan => nan

def add : Exact → Exact → Exact
  | real a, real b => real (a + b)
  | real _, infinite negative => infinite negative
  | infinite negative, real _ => infinite negative
  | infinite a, infinite b => if a = b then infinite a else nan
  | nan, _ => nan
  | _, nan => nan

def mul : Exact → Exact → Exact
  | real a, real b => real (a * b)
  | real a, infinite negative => if a = 0 then nan else infinite (decide (a < 0) != negative)
  | infinite negative, real b => if b = 0 then nan else infinite (negative != decide (b < 0))
  | infinite a, infinite b => infinite (a != b)
  | nan, _ => nan
  | _, nan => nan

def div : Exact → Exact → Exact
  | real a, real b =>
    if b = 0 then (if a = 0 then nan else infinite (decide (a < 0))) else real (a / b)
  | real _, infinite _ => real 0
  | infinite negative, real b => infinite (negative != decide (b < 0))
  | infinite _, infinite _ => nan
  | nan, _ => nan
  | _, nan => nan

def sincos [Turning] : Exact → Exact × Exact
  | real d => (real (Turning.sine d), real (Turning.cosine d))
  | _ => (nan, nan)

def bound : ℝ := 1000000

def written : Exact → ℝ
  | real v => max (-bound) (min bound v)
  | infinite negative => if negative then -bound else bound
  | nan => 0

instance [Turning] : Scalar Exact where
  add := add
  sub a b := add a (neg b)
  neg := neg
  mul := mul
  div := div
  natural n := real n
  sincos := sincos
  clamp v := real v.written

end Exact

end

namespace Exact

theorem bound_pos : 0 < bound := by norm_num [bound]

/-- Greater than zero; not-a-number is not. -/
def Positive : Exact → Prop
  | real v => 0 < v
  | infinite negative => negative = false
  | nan => False

theorem written_small {v : ℝ} (small : |v| ≤ bound) : (real v).written = v := by
  obtain ⟨lower, upper⟩ := abs_le.mp small
  simp [written, lower, upper]

theorem abs_written_le (v : ℝ) : |(real v).written| ≤ |v| := by
  by_cases small : |v| ≤ bound
  · rw [written_small small]
  · have pos := bound_pos
    refine le_trans (abs_le.mpr ?_) (le_of_not_ge small)
    constructor
    · exact le_max_left ..
    · exact max_le (by linarith) (min_le_left ..)

theorem written_pos {r : Exact} (positive : r.Positive) : 0 < r.written := by
  have pos := bound_pos
  cases r with
  | real v => exact lt_max_of_lt_right (lt_min pos positive)
  | infinite negative =>
    cases positive
    simpa [written] using pos
  | nan => cases positive

@[simp] theorem written_nan : nan.written = 0 := rfl

variable [Turning]

@[simp] theorem real_add (a b : ℝ) : real a + real b = real (a + b) := rfl

@[simp] theorem real_sub (a b : ℝ) : real a - real b = real (a - b) := by
  rw [sub_eq_add_neg]
  rfl

@[simp] theorem real_mul (a b : ℝ) : real a * real b = real (a * b) := rfl

theorem real_div (a : ℝ) {b : ℝ} (some : b ≠ 0) : real a / real b = real (a / b) := if_neg some

@[simp] theorem neg_real (a : ℝ) : -real a = real (-a) := rfl

@[simp] theorem neg_nan : -nan = nan := rfl

@[simp] theorem nan_mul (a : Exact) : nan * a = nan := by
  cases a <;> rfl

@[simp] theorem mul_nan (a : Exact) : a * nan = nan := by
  cases a <;> rfl

@[simp] theorem nan_add (a : Exact) : nan + a = nan := by
  cases a <;> rfl

@[simp] theorem add_nan (a : Exact) : a + nan = nan := by
  cases a <;> rfl

@[simp] theorem nan_sub (a : Exact) : nan - a = nan := by
  cases a <;> rfl

@[simp] theorem sub_nan (a : Exact) : a - nan = nan := by
  cases a <;> rfl

@[simp] theorem written_zero : (Scalar.zero : Exact).written = 0 := by
  have small : |((0 : ℕ) : ℝ)| ≤ bound := by simp [bound_pos.le]
  exact (written_small small).trans Nat.cast_zero

/-- A number and its reciprocal are bounded on their own, but together they never exceed one. -/
theorem abs_written_inverse (r : Exact) : |(Scalar.one / r).written| * |r.written| ≤ 1 := by
  have unit : (Scalar.one : Exact) = real 1 := congrArg real Nat.cast_one
  rw [unit]
  cases r with
  | real v =>
    by_cases zero : v = 0
    · have none := abs_written_le v
      rw [zero, abs_zero] at none
      have nothing : |(real v).written| = 0 := by
        rw [zero]
        exact le_antisymm none (abs_nonneg _)
      simp [nothing]
    · rw [real_div 1 zero]
      calc |(real (1 / v)).written| * |(real v).written|
          ≤ |1 / v| * |v| :=
            mul_le_mul (abs_written_le _) (abs_written_le _) (abs_nonneg _) (abs_nonneg _)
        _ = 1 := by rw [← abs_mul, one_div_mul_cancel zero, abs_one]
  | infinite negative =>
    have inverse : real 1 / infinite negative = real 0 := rfl
    simp [inverse, written, bound_pos.le]
  | nan => simp

end Exact

end DistanceField
