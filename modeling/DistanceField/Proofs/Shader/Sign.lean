import DistanceField.Proofs.Shader.Turn

/-! In exact arithmetic the sign of a generated distance tells the inside of a solid from its
outside. -/
namespace DistanceField.Shader.Space

open Exact

/-- The points inside a solid and those outside; its surface is neither. -/
structure Region where
  inside : Set Point
  outside : Set Point

namespace Region

def anyOf (rs : List Region) : Region :=
  ⟨{p | ∃ r ∈ rs, p ∈ r.inside}, {p | ∀ r ∈ rs, p ∈ r.outside}⟩

def allOf (rs : List Region) : Region :=
  ⟨{p | ∀ r ∈ rs, p ∈ r.inside}, {p | ∃ r ∈ rs, p ∈ r.outside}⟩

/-- The first without all others; nothing without a first. -/
def without : List Region → Region
  | [] => ⟨∅, Set.univ⟩
  | r :: rs =>
    ⟨{p | p ∈ r.inside ∧ ∀ s ∈ rs, p ∈ s.outside}, {p | p ∈ r.outside ∨ ∃ s ∈ rs, p ∈ s.inside}⟩

/-- The points that `m` takes into a region. -/
def under (r : Region) (m : Point → Point) : Region := ⟨{p | m p ∈ r.inside}, {p | m p ∈ r.outside}⟩

noncomputable section

def box (x y h : ℝ) : Region :=
  ⟨{p | |p 0| < x ∧ |p 1| < y ∧ 0 < p 2 ∧ p 2 < h},
    {p | x < |p 0| ∨ y < |p 1| ∨ p 2 < 0 ∨ h < p 2}⟩

def ball (r : ℝ) : Region := ⟨{p | dist p !₂[0, 0, r] < r}, {p | r < dist p !₂[0, 0, r]}⟩

def rod (r h : ℝ) : Region :=
  ⟨{p | √(p 0 ^ 2 + p 1 ^ 2) < r ∧ 0 < p 2 ∧ p 2 < h},
    {p | r < √(p 0 ^ 2 + p 1 ^ 2) ∨ p 2 < 0 ∨ h < p 2}⟩

def stacked (rs : List Region) (h : ℝ) (base : Region) : Region :=
  anyOf [(anyOf rs).under fun p => p - !₂[0, 0, h], base]

end

end Region

section Solids

variable [Turning]

noncomputable section

/-- The solid that a shape makes of its operands, in the numbers that are written. -/
def solid (shape : Shape) (param : Bytes → Exact) (rs : List Region) : Region :=
  let turn := turnedBack (param "x") (param "y") (param "z")
  let side (name : Bytes) := (Scalar.half (param name)).written
  match shape with
  | .group | .union | .other _ => .anyOf rs
  | .intersection => .allOf rs
  | .diff => .without rs
  | .box => .stacked rs (param "z").written (.box (side "x") (side "y") (param "z").written)
  | .sphere => .stacked rs (param "d").written (.ball (side "d"))
  | .cylinder => .stacked rs (param "h").written (.rod (side "d") (param "h").written)
  | .trans =>
    (Region.anyOf rs).under fun p =>
      p - !₂[(param "x").written, (param "y").written, (param "z").written]
  | .rot => (Region.anyOf rs).under turn
  | .arot => (Region.anyOf rs).under fun p => turn (p - !₂[0, 0, -3 / 2])
  | .scale => (Region.anyOf rs).under fun p => (Scalar.one / param "r").written • p

mutual

def region : Geometry Exact → Region
  | .mk _ shape params children => solid shape (Geometry.lookup shape params) (regions children)

def regions : List (Geometry Exact) → List Region
  | [] => []
  | g :: gs => region g :: regions gs

end

end

mutual

/-- Every factor of a scale is positive. -/
def Growing : Geometry Exact → Prop
  | .mk _ shape params children =>
    (shape = .scale → (Geometry.lookup shape params "r").Positive) ∧ AllGrowing children

def AllGrowing : List (Geometry Exact) → Prop
  | [] => True
  | g :: gs => Growing g ∧ AllGrowing gs

end

end Solids

/-- Negative inside, positive outside. -/
structure Signs (f : Point → ℝ) (r : Region) : Prop where
  inside : ∀ p, f p < 0 ↔ p ∈ r.inside
  outside : ∀ p, 0 < f p ↔ p ∈ r.outside

section Folds

variable {fs : List (Point → ℝ)} {rs : List Region}

theorem far_pos : 0 < far := by norm_num [far]

theorem foldl_min_signs (all : List.Forall₂ Signs fs rs) (f : Point → ℝ) (p : Point) :
    (fs.foldl reading.min f p < 0 ↔ f p < 0 ∨ ∃ r ∈ rs, p ∈ r.inside) ∧
      (0 < fs.foldl reading.min f p ↔ 0 < f p ∧ ∀ r ∈ rs, p ∈ r.outside) := by
  induction all generalizing f with
  | nil => simp
  | cons first _ ih =>
    obtain ⟨inside, outside⟩ := ih (reading.min f _)
    rw [List.foldl_cons, inside, outside]
    simp [reading, first.inside, first.outside, or_assoc, and_assoc]

theorem foldl_max_signs (all : List.Forall₂ Signs fs rs) (f : Point → ℝ) (p : Point) :
    (fs.foldl reading.max f p < 0 ↔ f p < 0 ∧ ∀ r ∈ rs, p ∈ r.inside) ∧
      (0 < fs.foldl reading.max f p ↔ 0 < f p ∨ ∃ r ∈ rs, p ∈ r.outside) := by
  induction all generalizing f with
  | nil => simp
  | cons first _ ih =>
    obtain ⟨inside, outside⟩ := ih (reading.max f _)
    rw [List.foldl_cons, inside, outside]
    simp [reading, first.inside, first.outside, or_assoc, and_assoc]

theorem unite_signs (all : List.Forall₂ Signs fs rs) : Signs (reading.unite fs) (.anyOf rs) := by
  have pos := far_pos
  constructor <;> intro p
  · refine (foldl_min_signs all reading.empty p).1.trans ?_
    simp [reading, Region.anyOf, pos.le]
  · refine (foldl_min_signs all reading.empty p).2.trans ?_
    simp [reading, Region.anyOf, pos]

theorem intersect_signs (all : List.Forall₂ Signs fs rs) :
    Signs (reading.intersect fs) (.allOf rs) := by
  have pos := far_pos
  constructor <;> intro p
  · refine (foldl_max_signs all reading.full p).1.trans ?_
    simp [reading, Region.allOf, pos]
  · refine (foldl_max_signs all reading.full p).2.trans ?_
    simp [reading, Region.allOf, pos.le]

theorem negated_signs (all : List.Forall₂ Signs fs rs) :
    List.Forall₂ Signs (fs.map reading.neg) (rs.map fun r => ⟨r.outside, r.inside⟩) := by
  induction all with
  | nil => exact .nil
  | cons first _ ih =>
    refine .cons ⟨?_, ?_⟩ ih <;> intro p
    · simp [reading, first.outside]
    · simp [reading, first.inside]

theorem subtract_signs (all : List.Forall₂ Signs fs rs) :
    Signs (reading.subtract fs) (.without rs) := by
  have pos := far_pos
  cases all with
  | nil => constructor <;> intro p <;> simp [Reading.subtract, reading, Region.without, pos, pos.le]
  | @cons f r fs rs first rest =>
    have cut := foldl_max_signs (negated_signs rest) f
    simp only [List.foldl_map] at cut
    constructor <;> intro p
    · refine (cut p).1.trans ?_
      simp [Region.without, first.inside]
    · refine (cut p).2.trans ?_
      simp [Region.without, first.outside]

end Folds

section Bases

theorem block_signs (x y h : Exact) :
    Signs (block x y h) (.box x.written y.written h.written) := by
  constructor <;> intro p
  · simp [block, slab, Region.box, and_assoc]
  · simp [block, slab, Region.box, or_assoc]

theorem globe_signs (r : Exact) : Signs (globe r) (.ball r.written) := by
  constructor <;> intro p <;> simp [globe, Region.ball]

theorem pillar_signs (r h : Exact) : Signs (pillar r h) (.rod r.written h.written) := by
  constructor <;> intro p <;> simp [pillar, slab, Region.rod, EuclideanSpace.norm_eq]

theorem Signs.under {f : Point → ℝ} {r : Region} (signs : Signs f r) (m : Point → Point) :
    Signs (fun p => f (m p)) (r.under m) :=
  ⟨fun p => signs.inside (m p), fun p => signs.outside (m p)⟩

theorem Signs.min {f g : Point → ℝ} {r s : Region} (left : Signs f r) (right : Signs g s) :
    Signs (reading.min f g) (.anyOf [r, s]) := by
  constructor <;> intro p
  · simp [reading, Region.anyOf, left.inside, right.inside]
  · simp [reading, Region.anyOf, left.outside, right.outside]

theorem Signs.times {f : Point → ℝ} {r : Region} (signs : Signs f r) {k : Exact}
    (positive : k.Positive) : Signs (reading.times f k) r := by
  have pos := written_pos positive
  constructor <;> intro p
  · simp [reading, ← signs.inside, mul_neg_iff, pos, not_lt_of_gt pos]
  · simp [reading, ← signs.outside, pos]

end Bases

section Trees

variable [Turning]

theorem moved_raised (h : Exact) :
    moved (.shift ⟨Scalar.zero, Scalar.zero, h⟩) = fun p => p - !₂[0, 0, h.written] := by
  funext p
  simp [moved, vector]

theorem drop_real : (drop : Exact) = real (-3 / 2) := by
  have half := real_div (3 : ℕ) (show ((2 : ℕ) : ℝ) ≠ 0 by norm_num)
  change -(real (3 : ℕ) / real (2 : ℕ)) = _
  rw [half, neg_real]
  norm_num

theorem drop_written : (drop : Exact).written = -3 / 2 := by
  rw [drop_real]
  apply written_small
  norm_num [bound, abs_of_neg]

theorem stacked_signs {fs : List (Point → ℝ)} {rs : List Region} (all : List.Forall₂ Signs fs rs)
    (h : Exact) {f : Point → ℝ} {base : Region} (signs : Signs f base) :
    Signs (reading.min (reading.raise (reading.unite fs) h) f) (.stacked rs h.written base) := by
  refine Signs.min ?_ signs
  rw [← moved_raised]
  exact (unite_signs all).under _

theorem solid_signs (shape : Shape) (param : Bytes → Exact)
    (positive : shape = .scale → (param "r").Positive) {fs : List (Point → ℝ)} {rs : List Region}
    (all : List.Forall₂ Signs fs rs) :
    Signs (reading.solid shape param fs) (solid shape param rs) := by
  have body := unite_signs all
  cases shape with
  | group | union | other => exact body
  | intersection => exact intersect_signs all
  | diff => exact subtract_signs all
  | box => exact stacked_signs all _ (block_signs ..)
  | sphere => exact stacked_signs all _ (globe_signs _)
  | cylinder => exact stacked_signs all _ (pillar_signs ..)
  | trans => exact body.under _
  | rot =>
    simp only [solid, ← moved_turnBack]
    exact body.under _
  | arot =>
    have lowered := moved_raised drop
    rw [drop_written] at lowered
    simp only [solid, ← moved_turnBack, ← congrFun lowered]
    exact body.under _
  | scale => exact (body.under _).times (positive rfl)

mutual

theorem tree_signs : (g : Geometry Exact) → Growing g → Signs (reading.tree g) (region g)
  | .mk _ shape params children, growing => by
    obtain ⟨own, inner⟩ := growing
    rw [Reading.tree, region]
    exact solid_signs shape _ own (trees_sign children inner)

theorem trees_sign : (gs : List (Geometry Exact)) → AllGrowing gs →
    List.Forall₂ Signs (reading.trees gs) (regions gs)
  | [], _ => by simp [Reading.trees, regions]
  | g :: gs, growing => by
    obtain ⟨first, rest⟩ := growing
    rw [Reading.trees, regions]
    exact .cons (tree_signs g first) (trees_sign gs rest)

end

/-- Where all factors of scales are positive, the distance generated for a tree is negative inside
its solid and positive outside. -/
theorem generated_distance_signs (g : Geometry Float) (growing : Growing g.exact) (p : Point) :
    (reach g.exact p < 0 ↔ p ∈ (region g.exact).inside) ∧
      (0 < reach g.exact p ↔ p ∈ (region g.exact).outside) := by
  rw [reach_eq_tree]
  have signs := tree_signs g.exact growing
  exact ⟨signs.inside p, signs.outside p⟩

end Trees

def doubled : Geometry Float := .mk "scale" .scale [("r", 2)] [.mk "sphere" .sphere [] []]

theorem doubled_inside :
    letI := Turning.degrees
    Growing doubled.exact ∧ reach doubled.exact !₂[0, 0, 1] < 0 := by
  let _ := Turning.degrees
  have two : ofDouble 2 = real 2 := by
    have seen : Double.view 2 = .finite false (2 ^ 52) (-51) := rfl
    norm_num [ofDouble, seen]
  have tree : doubled.exact = .mk "scale" .scale [("r", real 2)] [.mk "sphere" .sphere [] []] := by
    simp [doubled, Geometry.exact, Geometry.map, Geometry.mapAll, two]
  have growing : Growing doubled.exact := by
    rw [tree]
    refine ⟨fun _ => ?_, ⟨by simp, trivial⟩, trivial⟩
    change (0 : ℝ) < 2
    norm_num
  refine ⟨growing, (generated_distance_signs doubled growing _).1.mpr ?_⟩
  rw [tree]
  have half : (real 1 / real 2 : Exact).written = 1 / 2 := by
    rw [real_div 1 two_ne_zero]
    exact written_small (by norm_num [bound])
  have unit : (Scalar.one : Exact) = real 1 := congrArg real Nat.cast_one
  have radius : (Scalar.half (real 1) : Exact) = real 1 / real 2 :=
    congrArg (fun v : ℝ => real 1 / real v) Nat.cast_ofNat
  have size : Geometry.lookup .sphere ([] : List (Bytes × Exact)) "d" = real 1 :=
    congrArg real Nat.cast_one
  have given : Geometry.lookup .scale [("r", real 2)] "r" = real 2 := rfl
  have centre : (2⁻¹ : ℝ) • (!₂[0, 0, 1] : Point) = !₂[0, 0, 2⁻¹] := by
    ext k
    fin_cases k <;> simp
  simp [region, regions, solid, Region.under, Region.anyOf, Region.stacked, Region.ball, given, size,
    unit, radius, half, centre]

end DistanceField.Shader.Space
