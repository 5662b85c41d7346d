import DistanceField.Proofs.Shader.Turn

/-! In exact arithmetic a generated distance never changes by more than the point moves. -/
namespace DistanceField.Shader.Space

open Exact

section Turns

theorem contracts_of_squares {m : Point → Point}
    (shorter : ∀ p q, ∑ k, (m p k - m q k) ^ 2 ≤ ∑ k, (p k - q k) ^ 2) : LipschitzWith 1 m := by
  refine LipschitzWith.of_dist_le_mul fun p q => ?_
  simp only [NNReal.coe_one, one_mul, EuclideanSpace.dist_eq, Real.dist_eq, sq_abs]
  exact Real.sqrt_le_sqrt (shorter p q)

theorem spin_contracts (axis : Fin 3) {s c : ℝ} (unit : s ^ 2 + c ^ 2 = 1) :
    LipschitzWith 1 (spin axis s c) := by
  refine contracts_of_squares fun p q => le_of_eq ?_
  fin_cases axis
  · simp [spin, Fin.sum_univ_three]
    linear_combination ((p 1 - q 1) ^ 2 + (p 2 - q 2) ^ 2) * unit
  · simp [spin, Fin.sum_univ_three]
    linear_combination ((p 0 - q 0) ^ 2 + (p 2 - q 2) ^ 2) * unit
  · simp [spin, Fin.sum_univ_three]
    linear_combination ((p 0 - q 0) ^ 2 + (p 1 - q 1) ^ 2) * unit

theorem alone_contracts (k : Fin 3) : LipschitzWith 1 (alone k) := by
  refine contracts_of_squares fun p q => ?_
  apply Finset.sum_le_sum
  intro j _
  by_cases same : j = k
  · simp [alone, same]
  · simp [alone, same, sq_nonneg]

variable [Turning]

theorem turned_contracts (axis : Fin 3) (a : Exact) :
    LipschitzWith 1 (turned axis (Scalar.sincos a)) := by
  rcases sincos_cases a with ⟨s, c, unit, same⟩ | same
  · rw [same]
    exact spin_contracts axis unit
  · rw [same]
    exact alone_contracts axis

theorem turnedBack_contracts (x y z : Exact) : LipschitzWith 1 (turnedBack x y z) := by
  unfold turnedBack
  rcases sincos_cases (-y) with ⟨s, c, unit, second⟩ | second
  · have whole := (turned_contracts 2 (-z)).comp
      ((spin_contracts 1 unit).comp (turned_contracts 0 (-x)))
    rw [one_mul, one_mul] at whole
    rw [second]
    exact whole
  · rw [second]
    exact LipschitzWith.const' 0

theorem turn_contracts (x y z : Exact) : LipschitzWith 1 (moved (.turn (turnBack x y z))) :=
  moved_turnBack x y z ▸ turnedBack_contracts x y z

end Turns

theorem shift_contracts (v : Triple Exact) : LipschitzWith 1 (moved (.shift v)) :=
  LipschitzWith.of_dist_le_mul fun p q => by simp [moved]

theorem coordinate_contracts (k : Fin 3) : LipschitzWith 1 fun p : Point => p k := by
  refine LipschitzWith.of_dist_le_mul fun p q => ?_
  have part := PiLp.norm_apply_le (p - q) k
  simpa [Real.dist_eq, dist_eq_norm] using part

theorem abs_contracts {f : Point → ℝ} (contracts : LipschitzWith 1 f) :
    LipschitzWith 1 fun p => |f p| := by
  refine LipschitzWith.of_dist_le_mul fun p q => ?_
  calc dist |f p| |f q| ≤ dist (f p) (f q) := abs_abs_sub_abs_le (f p) (f q)
    _ ≤ _ := contracts.dist_le_mul p q

theorem sub_contracts {f : Point → ℝ} (contracts : LipschitzWith 1 f) (r : ℝ) :
    LipschitzWith 1 fun p => f p - r := by
  refine LipschitzWith.of_dist_le_mul fun p q => ?_
  simpa using contracts.dist_le_mul p q

theorem min_contracts {f g : Point → ℝ} (left : LipschitzWith 1 f) (right : LipschitzWith 1 g) :
    LipschitzWith 1 fun p => min (f p) (g p) := by
  simpa using left.min right

theorem max_contracts {f g : Point → ℝ} (left : LipschitzWith 1 f) (right : LipschitzWith 1 g) :
    LipschitzWith 1 fun p => max (f p) (g p) := by
  simpa using left.max right

theorem slab_contracts (h : Exact) : LipschitzWith 1 (slab h) :=
  max_contracts (coordinate_contracts 2).neg (sub_contracts (coordinate_contracts 2) _)

theorem block_contracts (x y h : Exact) : LipschitzWith 1 (block x y h) :=
  max_contracts
    (max_contracts (sub_contracts (abs_contracts (coordinate_contracts 0)) _)
      (sub_contracts (abs_contracts (coordinate_contracts 1)) _))
    (slab_contracts h)

theorem globe_contracts (r : Exact) : LipschitzWith 1 (globe r) :=
  sub_contracts (LipschitzWith.dist_left _) _

theorem axis_contracts : LipschitzWith 1 fun p : Point => ‖!₂[p 0, p 1]‖ := by
  refine LipschitzWith.of_dist_le_mul fun p q => ?_
  calc dist ‖!₂[p 0, p 1]‖ ‖!₂[q 0, q 1]‖ ≤ dist !₂[p 0, p 1] !₂[q 0, q 1] := by
        rw [dist_eq_norm]
        exact dist_norm_norm_le ..
    _ ≤ dist p q := by
        simp only [EuclideanSpace.dist_eq, Fin.sum_univ_two, Fin.sum_univ_three]
        apply Real.sqrt_le_sqrt
        simp
    _ = _ := by simp

theorem pillar_contracts (r h : Exact) : LipschitzWith 1 (pillar r h) :=
  max_contracts (sub_contracts axis_contracts _) (slab_contracts h)

theorem foldl_contracts {join : (Point → ℝ) → (Point → ℝ) → Point → ℝ}
    (joins : ∀ {f g}, LipschitzWith 1 f → LipschitzWith 1 g → LipschitzWith 1 (join f g))
    {fs : List (Point → ℝ)} (all : ∀ f ∈ fs, LipschitzWith 1 f) {f : Point → ℝ}
    (start : LipschitzWith 1 f) : LipschitzWith 1 (fs.foldl join f) := by
  induction fs generalizing f with
  | nil => exact start
  | cons g fs ih =>
    obtain ⟨first, rest⟩ := List.forall_mem_cons.mp all
    exact ih rest (joins start first)

theorem sample_contracts {f : Point → ℝ} (contracts : LipschitzWith 1 f) {w : Placement Exact}
    (moves : LipschitzWith 1 (moved w)) : LipschitzWith 1 (reading.sample f w) := by
  have whole := contracts.comp moves
  rwa [one_mul] at whole

section Shapes

variable [Turning]

theorem scaled_contracts {f : Point → ℝ} (contracts : LipschitzWith 1 f) (r : Exact) :
    LipschitzWith 1 fun p => f (moved (.shrink (Scalar.one / r)) p) * r.written := by
  refine LipschitzWith.of_dist_le_mul fun p q => ?_
  generalize inverse : (Scalar.one / r).written = k
  have product : |k| * |r.written| ≤ 1 := inverse ▸ abs_written_inverse r
  have inner : |f (k • p) - f (k • q)| ≤ |k| * dist p q := by
    have near := contracts.dist_le_mul (k • p) (k • q)
    rwa [NNReal.coe_one, one_mul, Real.dist_eq, dist_smul₀, Real.norm_eq_abs] at near
  simp only [moved, inverse, Real.dist_eq, NNReal.coe_one, one_mul]
  calc |f (k • p) * r.written - f (k • q) * r.written|
      = |f (k • p) - f (k • q)| * |r.written| := by rw [← sub_mul, abs_mul]
    _ ≤ |k| * dist p q * |r.written| := mul_le_mul_of_nonneg_right inner (abs_nonneg _)
    _ = |k| * |r.written| * dist p q := by ring
    _ ≤ 1 * dist p q := mul_le_mul_of_nonneg_right product dist_nonneg
    _ = dist p q := one_mul _

theorem solid_contracts (shape : Shape) (param : Bytes → Exact) {fs : List (Point → ℝ)}
    (all : ∀ f ∈ fs, LipschitzWith 1 f) : LipschitzWith 1 (reading.solid shape param fs) := by
  have body : LipschitzWith 1 (reading.unite fs) :=
    foldl_contracts min_contracts all (LipschitzWith.const' _)
  have raised (h : Exact) : LipschitzWith 1 (reading.raise (reading.unite fs) h) :=
    sample_contracts body (shift_contracts _)
  cases shape with
  | group | union | other => exact body
  | intersection => exact foldl_contracts max_contracts all (LipschitzWith.const' _)
  | diff =>
    cases fs with
    | nil => exact LipschitzWith.const' _
    | cons f fs =>
      obtain ⟨first, rest⟩ := List.forall_mem_cons.mp all
      exact foldl_contracts (fun left right => max_contracts left right.neg) rest first
  | box => exact min_contracts (raised _) (block_contracts _ _ _)
  | sphere => exact min_contracts (raised _) (globe_contracts _)
  | cylinder => exact min_contracts (raised _) (pillar_contracts _ _)
  | trans => exact sample_contracts body (shift_contracts _)
  | rot => exact sample_contracts body (turn_contracts _ _ _)
  | arot =>
    exact sample_contracts (sample_contracts body (turn_contracts _ _ _)) (shift_contracts _)
  | scale => exact scaled_contracts body _

mutual

theorem tree_contracts : (g : Geometry Exact) → LipschitzWith 1 (reading.tree g)
  | .mk _ shape params children => by
    rw [Reading.tree]
    exact solid_contracts shape _ (trees_contract children)

theorem trees_contract : (gs : List (Geometry Exact)) → ∀ f ∈ reading.trees gs, LipschitzWith 1 f
  | [] => by simp [Reading.trees]
  | g :: gs => by
    rw [Reading.trees, List.forall_mem_cons]
    exact ⟨tree_contracts g, trees_contract gs⟩

end

/-- The expressions generated for a tree, with exact numbers in the places of its doubles, change
by no more than the point moves; a factor and its reciprocal, as written, never exceed one. -/
theorem generated_distance_contracts (g : Geometry Float) :
    (program g.exact).bare = (program g).bare ∧
      (∀ p q : Point, |reach g.exact p - reach g.exact q| ≤ dist p q) ∧
      ∀ r : Exact, |(Scalar.one / r).written * r.written| ≤ 1 := by
  refine ⟨program_exact_bare g, ?_, ?_⟩
  · intro p q
    have near := (tree_contracts g.exact).dist_le_mul p q
    rwa [← reach_eq_tree, NNReal.coe_one, one_mul, Real.dist_eq] at near
  · intro r
    rw [abs_mul]
    exact abs_written_inverse r

end Shapes

end DistanceField.Shader.Space
