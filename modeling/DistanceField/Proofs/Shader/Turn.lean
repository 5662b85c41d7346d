import DistanceField.Proofs.Shader.Space

/-! The rows of a generated rotation turn a point about the three axes, one after the other. -/
namespace DistanceField.Shader.Space

open Exact

noncomputable section

def spin (axis : Fin 3) (s c : ℝ) (p : Point) : Point :=
  WithLp.toLp 2 fun k =>
    if k = axis then p k
    else if k = axis + 1 then c * p k - s * p (k + 1)
    else c * p k + s * p (k + 2)

def alone (k : Fin 3) (p : Point) : Point := EuclideanSpace.single k (p k)

/-- A turn by the sine and cosine of an angle. One that is no number leaves only the axis. -/
def turned (axis : Fin 3) : Exact × Exact → Point → Point
  | (.real s, .real c) => spin axis s c
  | _ => alone axis

/-- A point turned back about X, then Y, then Z. Where the angle about Y is no number, all points
come to lie at the origin. -/
def turnedBack [Turning] (x y z : Exact) (p : Point) : Point :=
  match Scalar.sincos (-y) with
  | (.real s, .real c) =>
    turned 2 (Scalar.sincos (-z)) (spin 1 s c (turned 0 (Scalar.sincos (-x)) p))
  | _ => 0

end

theorem abs_le_one_of_unit {s c : ℝ} (unit : s ^ 2 + c ^ 2 = 1) : |s| ≤ 1 ∧ |c| ≤ 1 := by
  constructor
  · exact (sq_le_one_iff_abs_le_one s).mp (by nlinarith [sq_nonneg c])
  · exact (sq_le_one_iff_abs_le_one c).mp (by nlinarith [sq_nonneg s])

theorem abs_mul_le_one {a b : ℝ} (left : |a| ≤ 1) (right : |b| ≤ 1) : |a * b| ≤ 1 := by
  rw [abs_mul]
  exact mul_le_one₀ left (abs_nonneg b) right

theorem written_unit {a : ℝ} (small : |a| ≤ 1) : (real a).written = a :=
  written_small (small.trans (by norm_num [bound]))

theorem written_sum {a b : ℝ} (left : |a| ≤ 1) (right : |b| ≤ 1) :
    (real (a + b)).written = a + b := by
  have two : (2 : ℝ) ≤ bound := by norm_num [bound]
  exact written_small ((abs_add_le a b).trans (by linarith))

theorem inner_vector (p : Point) (t : Triple Exact) :
    inner ℝ p (vector t) = t.x.written * p 0 + t.y.written * p 1 + t.z.written * p 2 := by
  simp [vector, PiLp.inner_apply, Fin.sum_univ_three]

variable [Turning]

theorem sincos_cases (a : Exact) :
    (∃ s c : ℝ, s ^ 2 + c ^ 2 = 1 ∧ Scalar.sincos a = (real s, real c)) ∨
      Scalar.sincos a = (nan, nan) := by
  cases a with
  | real d => exact .inl ⟨_, _, Turning.unit d, rfl⟩
  | infinite | nan => exact .inr rfl

theorem moved_turn {x y z : Exact} {s c : ℝ} (unit : s ^ 2 + c ^ 2 = 1)
    (second : Scalar.sincos (-y) = (real s, real c)) (p : Point) :
    moved (.turn (turnBack x y z)) p =
      turned 2 (Scalar.sincos (-z)) (spin 1 s c (turned 0 (Scalar.sincos (-x)) p)) := by
  obtain ⟨hs, hc⟩ := abs_le_one_of_unit unit
  have zx := written_unit ((abs_neg s).trans_le hs)
  rcases sincos_cases (-x) with ⟨sa, ca, ua, first⟩ | first <;>
    rcases sincos_cases (-z) with ⟨sc, cc, uc, third⟩ | third
  · obtain ⟨hsa, hca⟩ := abs_le_one_of_unit ua
    obtain ⟨hsc, hcc⟩ := abs_le_one_of_unit uc
    have xx := written_unit (abs_mul_le_one hc hcc)
    have xy := written_sum (abs_mul_le_one (abs_mul_le_one hcc hsa) hs)
      ((abs_neg _).trans_le (abs_mul_le_one hca hsc))
    have xz := written_sum (abs_mul_le_one (abs_mul_le_one hca hcc) hs) (abs_mul_le_one hsa hsc)
    have yx := written_unit (abs_mul_le_one hc hsc)
    have yy := written_sum (abs_mul_le_one hca hcc) (abs_mul_le_one (abs_mul_le_one hsa hs) hsc)
    have yz := written_sum ((abs_neg _).trans_le (abs_mul_le_one hcc hsa))
      (abs_mul_le_one (abs_mul_le_one hca hs) hsc)
    have zy := written_unit (abs_mul_le_one hc hsa)
    have zz := written_unit (abs_mul_le_one hca hc)
    rw [← sub_eq_add_neg] at xy
    ext k
    fin_cases k <;>
      simp [moved, turnBack, first, second, third, inner_vector, turned, spin, xx, xy, xz, yx, yy,
        yz, zx, zy, zz] <;> ring
  · obtain ⟨hsa, hca⟩ := abs_le_one_of_unit ua
    have zy := written_unit (abs_mul_le_one hc hsa)
    have zz := written_unit (abs_mul_le_one hca hc)
    ext k
    fin_cases k <;>
      simp [moved, turnBack, first, second, third, inner_vector, turned, alone, spin, zx, zy, zz]
    ring
  · obtain ⟨hsc, hcc⟩ := abs_le_one_of_unit uc
    have xx := written_unit (abs_mul_le_one hc hcc)
    have yx := written_unit (abs_mul_le_one hc hsc)
    ext k
    fin_cases k <;>
      simp [moved, turnBack, first, second, third, inner_vector, turned, alone, spin, xx, yx,
        zx] <;> ring
  · ext k
    fin_cases k <;>
      simp [moved, turnBack, first, second, third, inner_vector, turned, alone, spin, zx]

theorem moved_turnBack (x y z : Exact) :
    moved (.turn (turnBack x y z)) = turnedBack x y z := by
  funext p
  rcases sincos_cases (-y) with ⟨s, c, unit, second⟩ | second
  · simp only [turnedBack, second]
    exact moved_turn unit second p
  · -- every entry has a factor that is no number
    ext k
    fin_cases k <;> simp [moved, turnBack, turnedBack, second, inner_vector]

end DistanceField.Shader.Space
