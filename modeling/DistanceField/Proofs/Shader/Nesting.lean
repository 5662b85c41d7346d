import DistanceField.Proofs.Shader.Sign

/-! Turns and shifts of turned and shifted solids. A turn about three axes is a tree of turns about one
axis each, the turn about X outermost, and what `arot` takes away goes along the axis that does not turn. -/
namespace DistanceField.Shader

def solidOf {α : Type} (shape : Shape) (params : List (Bytes × α)) (gs : List (Geometry α)) :
    Geometry α :=
  .mk shape.name shape params gs

section Points

variable {α P V : Type} [LinearOrder V]

/-- Expressions are read at points: a sample is taken at the placed point, a union point by point, and
what is empty is equally far from everywhere. -/
structure Pointwise (R : Reading α (P → V)) (place : Placement α → P → P) : Prop where
  sample : ∀ f w p, R.sample f w p = f (place w p)
  min : ∀ f g p, R.min f g p = min (f p) (g p)
  empty : ∀ p q, R.empty p = R.empty q

variable {R : Reading α (P → V)} {place : Placement α → P → P}

theorem Pointwise.unite_le (points : Pointwise R place) (fs : List (P → V)) (p : P) :
    R.unite fs p ≤ R.empty p := by
  have below (f : P → V) (start : f p ≤ R.empty p) : fs.foldl R.min f p ≤ R.empty p := by
    induction fs generalizing f with
    | nil => exact start
    | cons g fs ih =>
      apply ih
      rw [points.min]
      exact (min_le_left _ _).trans start
  exact below R.empty le_rfl

theorem Pointwise.unite_unite (points : Pointwise R place) (fs : List (P → V)) :
    R.unite [R.unite fs] = R.unite fs := by
  funext p
  have near := points.unite_le fs p
  simpa [Reading.unite, points.min] using near

theorem Pointwise.unite_sample (points : Pointwise R place) {f : P → V} (united : R.unite [f] = f)
    (w : Placement α) : R.unite [R.sample f w] = R.sample f w := by
  funext p
  have there := congrFun united (place w p)
  simpa [Reading.unite, points.min, points.sample, points.empty (place w p) p] using there

end Points

section Calls

variable {α F : Type} [Scalar α]

def turnedBy (ps : List (Bytes × α)) : Placement α :=
  .turn (turnBack (Geometry.lookup .rot ps "x") (Geometry.lookup .rot ps "y")
    (Geometry.lookup .rot ps "z"))

def shiftedBy (ps : List (Bytes × α)) : Placement α :=
  .shift ⟨Geometry.lookup .trans ps "x", Geometry.lookup .trans ps "y", Geometry.lookup .trans ps "z"⟩

variable (R : Reading α F) (ps : List (Bytes × α)) (gs : List (Geometry α))

theorem tree_rot : R.tree (solidOf .rot ps gs) = R.sample (R.unite (R.trees gs)) (turnedBy ps) := by
  simp [solidOf, Reading.tree, Reading.solid, turnedBy]

theorem tree_trans :
    R.tree (solidOf .trans ps gs) = R.sample (R.unite (R.trees gs)) (shiftedBy ps) := by
  simp [solidOf, Reading.tree, Reading.solid, shiftedBy]

theorem tree_arot : R.tree (solidOf .arot ps gs) =
    R.raise (R.sample (R.unite (R.trees gs)) (turnedBy ps)) drop := by
  simp [solidOf, Reading.tree, Reading.solid, turnedBy]
  rfl

theorem trees_single (g : Geometry α) : R.trees [g] = [R.tree g] := by
  simp [Reading.trees]

end Calls

section Rings

/-- Arithmetic in a commutative ring with sines and cosines, of which only those of no turn are known;
of quotients nothing is. -/
class Compass (K : Type) extends CommRing K where
  sine : K → K
  cosine : K → K
  quotient : K → K → K
  sine_zero : sine 0 = 0
  cosine_zero : cosine 0 = 1

variable {K V : Type} [Compass K] [LinearOrder V]

instance (priority := low) : Scalar K where
  toAdd := inferInstance
  toSub := inferInstance
  toNeg := inferInstance
  toMul := inferInstance
  toDiv := ⟨Compass.quotient⟩
  natural n := n
  sincos a := (Compass.sine a, Compass.cosine a)
  clamp a := a

def Triple.dot (p q : Triple K) : K := p.x * q.x + p.y * q.y + p.z * q.z

/-- Where a point comes to lie when numbers are written as they are. -/
def Placement.image (w : Placement K) (p : Triple K) : Triple K :=
  match w with
  | .shift v => ⟨p.x - v.x, p.y - v.y, p.z - v.z⟩
  | .shrink k => ⟨p.x * k, p.y * k, p.z * k⟩
  | .turn m => ⟨p.dot m.x, p.dot m.y, p.dot m.z⟩

/-- What the solids without operands measure, and what is done to distances, in any ordered values. -/
structure Measure (K V : Type) where
  far : V
  deep : V
  neg : V → V
  times : V → K → V
  box : K → K → K → Triple K → V
  ball : K → Triple K → V
  rod : K → K → Triple K → V

def Measure.reading (m : Measure K V) : Reading K (Triple K → V) where
  empty _ := m.far
  full _ := m.deep
  min f g p := min (f p) (g p)
  max f g p := max (f p) (g p)
  neg f p := m.neg (f p)
  box := m.box
  ball := m.ball
  rod := m.rod
  sample f w p := f (w.image p)
  times f k p := m.times (f p) k

theorem Measure.pointwise (m : Measure K V) : Pointwise m.reading Placement.image where
  sample _ _ _ := rfl
  min _ _ _ := rfl
  empty _ _ := rfl

open Compass in
theorem turnBack_eq (x y z : K) : turnBack x y z =
    ⟨⟨cosine (-y) * cosine (-z),
      cosine (-z) * sine (-x) * sine (-y) - cosine (-x) * sine (-z),
      cosine (-x) * cosine (-z) * sine (-y) + sine (-x) * sine (-z)⟩,
     ⟨cosine (-y) * sine (-z),
      cosine (-x) * cosine (-z) + sine (-x) * sine (-y) * sine (-z),
      -cosine (-z) * sine (-x) + cosine (-x) * sine (-y) * sine (-z)⟩,
     ⟨-sine (-y), cosine (-y) * sine (-x), cosine (-x) * cosine (-y)⟩⟩ := rfl

/-- The rows turn a point about X, then Y, then Z. -/
theorem image_turn (x y z : K) (p : Triple K) :
    (Placement.turn (turnBack x y z)).image p =
      (Placement.turn (turnBack 0 0 z)).image ((Placement.turn (turnBack 0 y 0)).image
        ((Placement.turn (turnBack x 0 0)).image p)) := by
  simp only [turnBack_eq, Placement.image, Triple.dot, Triple.mk.injEq, neg_zero,
    Compass.sine_zero, Compass.cosine_zero]
  refine ⟨?_, ?_, ?_⟩ <;> ring

/-- A turn about three axes is a turn about Z of the solid, then about Y, then about X: the reverse of
the order in which the sampled point is turned. -/
theorem rot_turns_z_first (m : Measure K V) (x y z : K) (gs : List (Geometry K)) (p : Triple K) :
    m.reading.program (program (solidOf .rot [("x", x), ("y", y), ("z", z)] gs)) p =
      m.reading.program (program
        (solidOf .rot [("x", x)] [solidOf .rot [("y", y)] [solidOf .rot [("z", z)] gs]])) p := by
  have zero : (Scalar.zero : K) = 0 := Nat.cast_zero
  have whole : turnedBy [("x", x), ("y", y), ("z", z)] = .turn (turnBack x y z) := rfl
  have first : turnedBy [("x", x)] = .turn (turnBack x Scalar.zero Scalar.zero) := rfl
  have second : turnedBy [("y", y)] = .turn (turnBack Scalar.zero y Scalar.zero) := rfl
  have third : turnedBy [("z", z)] = .turn (turnBack Scalar.zero Scalar.zero z) := rfl
  simp only [Reading.program_eq_tree, tree_rot, trees_single, m.pointwise.unite_sample,
    m.pointwise.unite_unite, m.pointwise.sample, whole, first, second, third, zero]
  rw [image_turn]

end Rings

namespace Space

open Exact

theorem pointwise : Pointwise reading moved where
  sample _ _ _ := rfl
  min _ _ _ := rfl
  empty _ _ := rfl

noncomputable def up : Point := !₂[0, 0, 1]

/-- The parameters of a shift by what `arot` lowers its operands. -/
noncomputable def lowered : List (Bytes × Exact) := [("z", real (-1.5))]

def angles (x y z : Exact) : List (Bytes × Exact) := [("x", x), ("y", y), ("z", z)]

theorem third_coordinate (a b c : ℝ) : ![a, b, c] (2 : Fin 3) = c := rfl

theorem moved_turn_add (m : Triple (Triple Exact)) (p q : Point) :
    moved (.turn m) (p + q) = moved (.turn m) p + moved (.turn m) q := by
  ext k
  fin_cases k <;> simp [moved, inner_add_left]

theorem moved_turn_smul (m : Triple (Triple Exact)) (c : ℝ) (p : Point) :
    moved (.turn m) (c • p) = c • moved (.turn m) p := by
  ext k
  fin_cases k <;> simp [moved, real_inner_smul_left]

section Turns

variable [Turning]

theorem moved_turnedBy (x y z : Exact) : moved (turnedBy (angles x y z)) = turnedBack x y z :=
  moved_turnBack x y z

theorem turnedBack_add (x y z : Exact) (p q : Point) :
    turnedBack x y z (p + q) = turnedBack x y z p + turnedBack x y z q := by
  simp only [← moved_turnBack, moved_turn_add]

theorem turnedBack_smul (x y z : Exact) (c : ℝ) (p : Point) :
    turnedBack x y z (c • p) = c • turnedBack x y z p := by
  simp only [← moved_turnBack, moved_turn_smul]

theorem moved_dropped (p : Point) :
    moved (.shift ⟨Scalar.zero, Scalar.zero, drop⟩) p = p + (3 / 2 : ℝ) • up := by
  rw [moved_raised, drop_written]
  ext k
  fin_cases k <;> simp [up]
  ring

theorem moved_lowered (p : Point) : moved (shiftedBy lowered) p = p + (3 / 2 : ℝ) • up := by
  have half : (-1.5 : ℝ) = -3 / 2 := by norm_num
  have same : shiftedBy lowered = .shift ⟨Scalar.zero, Scalar.zero, drop⟩ := by
    rw [drop_real, lowered, half]
    rfl
  rw [same, moved_dropped]

theorem reach_arot (x y z : Exact) (gs : List (Geometry Exact)) (p : Point) :
    reach (solidOf .arot (angles x y z) gs) p =
      reading.unite (reading.trees gs) (turnedBack x y z (p + (3 / 2 : ℝ) • up)) := by
  rw [reach_eq_tree, tree_arot]
  simp only [Reading.raise, pointwise.sample, moved_dropped, moved_turnedBy]

theorem reach_turned_lowered (x y z : Exact) (gs : List (Geometry Exact)) (p : Point) :
    reach (solidOf .rot (angles x y z) [solidOf .trans lowered gs]) p =
      reading.unite (reading.trees gs) (turnedBack x y z p + (3 / 2 : ℝ) • up) := by
  simp only [reach_eq_tree, tree_rot, tree_trans, trees_single, pointwise.unite_sample,
    pointwise.unite_unite, pointwise.sample, moved_lowered, moved_turnedBy]

theorem reach_lowered_turned (x y z : Exact) (gs : List (Geometry Exact)) (p : Point) :
    reach (solidOf .trans lowered [solidOf .rot (angles x y z) gs]) p =
      reading.unite (reading.trees gs) (turnedBack x y z (p + (3 / 2 : ℝ) • up)) := by
  simp only [reach_eq_tree, tree_rot, tree_trans, trees_single, pointwise.unite_sample,
    pointwise.unite_unite, pointwise.sample, moved_lowered, moved_turnedBy]

noncomputable def speck : Geometry Exact := solidOf .sphere [("d", real 0)] []

theorem unite_speck (p : Point) : reading.unite (reading.trees [speck]) p = min far ‖p‖ := by
  have size : Geometry.lookup .sphere [("d", real 0)] "d" = real 0 := rfl
  have none : (Scalar.half (real 0) : Exact).written = 0 := by
    have half := real_div 0 (show ((2 : ℕ) : ℝ) ≠ 0 by norm_num)
    change (real 0 / real (2 : ℕ)).written = 0
    rw [half, zero_div]
    exact written_small (by simp [bound_pos.le])
  have origin : (!₂[0, 0, 0] : Point) = 0 := by
    ext k
    fin_cases k <;> simp
  simp [speck, solidOf, Reading.trees, Reading.tree, Reading.solid, Reading.unite, Reading.raise,
    reading, globe, size, none, origin]

/-- The operands of `arot` are turned and then lowered along the axis that stands. That they are lowered
along the axis they were turned with is so only where the turn leaves this axis as it is. -/
theorem arot_lowers_upright (x y z : Exact) :
    (∀ gs p, reach (solidOf .arot (angles x y z) gs) p =
      reach (solidOf .trans lowered [solidOf .rot (angles x y z) gs]) p) ∧
    ((∀ gs p, reach (solidOf .arot (angles x y z) gs) p =
      reach (solidOf .rot (angles x y z) [solidOf .trans lowered gs]) p) ↔
        turnedBack x y z up = up) := by
  refine ⟨?_, ?_, ?_⟩
  · intro gs p
    rw [reach_arot, reach_lowered_turned]
  · intro same
    -- the speck is lowered to the origin and measured there
    have here := same [speck] (-(3 / 2 : ℝ) • up)
    have met : -(3 / 2 : ℝ) • up + (3 / 2 : ℝ) • up = 0 := by simp
    have still : turnedBack x y z 0 = 0 := by simpa using turnedBack_smul x y z 0 0
    rw [reach_arot, reach_turned_lowered, unite_speck, unite_speck, met, still, norm_zero,
      min_eq_right far_pos.le, turnedBack_smul] at here
    have gap : -(3 / 2 : ℝ) • turnedBack x y z up + (3 / 2 : ℝ) • up = 0 := by
      rcases min_choice far ‖-(3 / 2 : ℝ) • turnedBack x y z up + (3 / 2 : ℝ) • up‖ with is | is
      · exact absurd (here.trans is) far_pos.ne
      · exact norm_eq_zero.mp (here.trans is).symm
    rw [neg_smul, neg_add_eq_zero] at gap
    exact smul_right_injective Point (by norm_num : (3 / 2 : ℝ) ≠ 0) gap
  · intro fixed gs p
    rw [reach_arot, reach_turned_lowered, turnedBack_add, turnedBack_smul, fixed]

noncomputable def beam (width : ℝ) : Geometry Exact :=
  solidOf .box [("x", real width), ("y", real width), ("z", real 16)] []

theorem unite_beam {width : ℝ} (small : |width / 2| ≤ bound) (p : Point) :
    reading.unite (reading.trees [beam width]) p =
      min far (max (max (|p 0| - width / 2) (|p 1| - width / 2)) (max (-p 2) (p 2 - 16))) := by
  have half : (Scalar.half (real width) : Exact).written = width / 2 := by
    have quotient := real_div width (show ((2 : ℕ) : ℝ) ≠ 0 by norm_num)
    change (real width / real (2 : ℕ)).written = width / 2
    rw [quotient, Nat.cast_ofNat]
    exact written_small small
  have tall : (real 16).written = 16 := written_small (by norm_num [bound])
  have sizes (n : Bytes) (size : Exact)
      (given : [(Bytes.ofString "x", real width), ("y", real width), ("z", real 16)].lookup n =
        some size) :
      Geometry.lookup .box [("x", real width), ("y", real width), ("z", real 16)] n = size := by
    simp [Geometry.lookup, given]
  simp [beam, solidOf, Reading.trees, Reading.tree, Reading.solid, Reading.unite, Reading.raise,
    reading, block, slab, sizes "x" _ rfl, sizes "y" _ rfl, sizes "z" _ rfl, half, tall]

structure Quarters : Prop where
  back : (Scalar.sincos (real (-90)) : Exact × Exact) = (real (-1), real 0)
  none : (Scalar.sincos (-Scalar.zero) : Exact × Exact) = (real 0, real 1)

theorem Quarters.about_none (quarters : Quarters) (p : Point) :
    turnedBack Scalar.zero Scalar.zero Scalar.zero p = p := by
  ext k
  fin_cases k <;> simp [turnedBack, turned, spin, quarters.none]

theorem Quarters.about_x (quarters : Quarters) (p : Point) :
    turnedBack (real 90) Scalar.zero Scalar.zero p = !₂[p 0, p 2, -p 1] := by
  ext k
  fin_cases k <;> simp [turnedBack, turned, spin, quarters.back, quarters.none]

theorem Quarters.about_y (quarters : Quarters) (p : Point) :
    turnedBack Scalar.zero (real 90) Scalar.zero p = !₂[-p 2, p 1, p 0] := by
  ext k
  fin_cases k <;> simp [turnedBack, turned, spin, quarters.back, quarters.none]

theorem Quarters.about_both (quarters : Quarters) (p : Point) :
    turnedBack (real 90) (real 90) Scalar.zero p = !₂[p 1, p 2, p 0] := by
  ext k
  fin_cases k <;> simp [turnedBack, turned, spin, quarters.back, quarters.none]

end Turns

theorem degrees_quarters : @Quarters Turning.degrees := by
  let _ := Turning.degrees
  have angle : -90 * Real.pi / 180 = -(Real.pi / 2) := by ring
  constructor
  · change (real (Real.sin (-90 * Real.pi / 180)), real (Real.cos (-90 * Real.pi / 180))) = _
    rw [angle]
    simp
  · change (real (Real.sin (-((0 : ℕ) : ℝ) * Real.pi / 180)),
      real (Real.cos (-((0 : ℕ) : ℝ) * Real.pi / 180))) = _
    simp

/-- A beam that is turned by a quarter about X and about Y at once does not lie where it comes to lie
when it is turned about X first. -/
theorem quarters_reversed :
    letI := Turning.degrees
    reach (solidOf .rot (angles (real 90) (real 90) Scalar.zero) [beam 6]) !₂[0, -7 / 2, 0] = 1 / 2 ∧
    reach (solidOf .rot [("z", Scalar.zero)] [solidOf .rot [("y", real 90)]
      [solidOf .rot [("x", real 90)] [beam 6]]]) !₂[0, -7 / 2, 0] = -3 := by
  let _ := Turning.degrees
  have small : |(6 : ℝ) / 2| ≤ bound := by norm_num [bound]
  have first : turnedBy [("x", real 90)] = .turn (turnBack (real 90) Scalar.zero Scalar.zero) := rfl
  have second : turnedBy [("y", real 90)] = .turn (turnBack Scalar.zero (real 90) Scalar.zero) := rfl
  have third : turnedBy [("z", Scalar.zero)] =
    .turn (turnBack (Scalar.zero : Exact) Scalar.zero Scalar.zero) := rfl
  simp only [reach_eq_tree, tree_rot, trees_single, pointwise.unite_sample, pointwise.unite_unite,
    pointwise.sample, moved_turnedBy, first, second, third, moved_turnBack,
    degrees_quarters.about_none, degrees_quarters.about_x, degrees_quarters.about_y,
    degrees_quarters.about_both]
  simp only [← trees_single, unite_beam small]
  constructor
  · norm_num [far, third_coordinate]
  · norm_num [far, third_coordinate]

/-- A beam that is turned is lowered along the axis that stands. -/
theorem quarter_lowered_upright :
    letI := Turning.degrees
    reach (solidOf .arot (angles (real 90) Scalar.zero Scalar.zero) [beam 64]) !₂[0, -8, 0] = -8 ∧
    reach (solidOf .rot (angles (real 90) Scalar.zero Scalar.zero)
      [solidOf .trans lowered [beam 64]]) !₂[0, -8, 0] = -13 / 2 := by
  let _ := Turning.degrees
  have small : |(64 : ℝ) / 2| ≤ bound := by norm_num [bound]
  simp only [reach_arot, reach_turned_lowered, degrees_quarters.about_x, unite_beam small]
  constructor
  · norm_num [far, up, third_coordinate]
  · norm_num [far, up, third_coordinate]

end Space

end DistanceField.Shader
