import DistanceField.Proofs.Number.Exact
import DistanceField.Proofs.Shader.Reading

/-! Generated expressions in exact arithmetic, over the points of space. -/
namespace DistanceField

section Trees

variable {α β γ : Type}

mutual

def Geometry.map (f : α → β) : Geometry α → Geometry β
  | .mk name shape params children =>
    .mk name shape (params.map fun p => (p.1, f p.2)) (Geometry.mapAll f children)

def Geometry.mapAll (f : α → β) : List (Geometry α) → List (Geometry β)
  | [] => []
  | g :: gs => g.map f :: Geometry.mapAll f gs

end

mutual

theorem Geometry.map_map (f : α → β) (h : β → γ) :
    (g : Geometry α) → (g.map f).map h = g.map fun a => h (f a)
  | .mk name shape params children => by
    simp [Geometry.map, Geometry.mapAll_mapAll f h children]

theorem Geometry.mapAll_mapAll (f : α → β) (h : β → γ) : (gs : List (Geometry α)) →
    Geometry.mapAll h (Geometry.mapAll f gs) = Geometry.mapAll (fun a => h (f a)) gs
  | [] => by simp [Geometry.mapAll]
  | g :: gs => by
    simp [Geometry.mapAll, Geometry.map_map f h g, Geometry.mapAll_mapAll f h gs]

end

end Trees

noncomputable def Geometry.exact (g : Geometry Float) : Geometry Exact := g.map Exact.ofDouble

namespace Shader

section Bare

inductive Blank where
  | mk
deriving DecidableEq

instance : Scalar Blank where
  add _ _ := .mk
  sub _ _ := .mk
  neg _ := .mk
  mul _ _ := .mk
  div _ _ := .mk
  natural _ := .mk
  sincos _ := (.mk, .mk)
  clamp _ := .mk

variable {α : Type}

def Placement.bare : Placement α → Placement Blank
  | .shift _ => .shift ⟨.mk, .mk, .mk⟩
  | .shrink _ => .shrink .mk
  | .turn _ => .turn ⟨⟨.mk, .mk, .mk⟩, ⟨.mk, .mk, .mk⟩, ⟨.mk, .mk, .mk⟩⟩

/-- The expression without its numbers. -/
def Distance.bare : Distance α → Distance Blank
  | .empty => .empty
  | .full => .full
  | .min a b => .min a.bare b.bare
  | .max a b => .max a.bare b.bare
  | .neg a => .neg a.bare
  | .box _ _ _ => .box .mk .mk .mk
  | .ball _ => .ball .mk
  | .rod _ _ => .rod .mk .mk
  | .sample i w => .sample i w.bare
  | .times a _ => .times a.bare .mk

def Program.bare (p : Program α) : Program Blank := ⟨p.helpers.map Distance.bare, p.distance.bare⟩

theorem foldl_bare {join : Distance α → Distance α → Distance α}
    {other : Distance Blank → Distance Blank → Distance Blank}
    (joins : ∀ a b, (join a b).bare = other a.bare b.bare) (ds : List (Distance α))
    (d : Distance α) : (ds.foldl join d).bare = (ds.map Distance.bare).foldl other d.bare := by
  induction ds generalizing d with
  | nil => rfl
  | cons e ds ih => simp [ih, joins]

variable [Scalar α]

theorem shaped_bare (shape : Shape) (param : Bytes → α) (other : Bytes → Blank)
    (ds hs : List (Distance α)) :
    shaped shape other (ds.map Distance.bare) (hs.map Distance.bare) =
      ((shaped shape param ds hs).1.bare, (shaped shape param ds hs).2.map Distance.bare) := by
  have body : (unite ds).bare = unite (ds.map Distance.bare) := foldl_bare (fun _ _ => rfl) ds .empty
  cases shape with
  | intersection =>
    have all : (intersect ds).bare = intersect (ds.map Distance.bare) :=
      foldl_bare (fun _ _ => rfl) ds .full
    simp [shaped, all]
  | diff =>
    cases ds with
    | nil => rfl
    | cons d ds =>
      have rest : (subtract (d :: ds)).bare = subtract ((d :: ds).map Distance.bare) :=
        foldl_bare (fun _ _ => rfl) ds d
      simp only [shaped, rest]
  | _ => simp [shaped, lift, place, body, Distance.bare, Placement.bare, turnBack]

mutual

theorem distance_bare (hs : List (Distance α)) : (g : Geometry α) →
    distance (g.map fun _ => Blank.mk) (hs.map Distance.bare) =
      ((distance g hs).1.bare, (distance g hs).2.map Distance.bare)
  | .mk _ shape params children => by
    simp only [Geometry.map, distance, distances_bare hs children]
    exact shaped_bare ..

theorem distances_bare (hs : List (Distance α)) : (gs : List (Geometry α)) →
    distances (Geometry.mapAll (fun _ => Blank.mk) gs) (hs.map Distance.bare) =
      ((distances gs hs).1.map Distance.bare, (distances gs hs).2.map Distance.bare)
  | [] => by simp [distances, Geometry.mapAll]
  | g :: gs => by
    simp [distances, Geometry.mapAll, distance_bare hs g, distances_bare (distance g hs).2 gs]

end

theorem program_bare (g : Geometry α) :
    (program g).bare = program (g.map fun _ => Blank.mk) := by
  have same := distance_bare [] g
  rw [List.map_nil] at same
  simp [program, Program.bare, same]

/-- Exact arithmetic leaves the generated expressions as they are, but for their numbers. -/
theorem program_exact_bare [Turning] (g : Geometry Float) :
    (program g.exact).bare = (program g).bare := by
  rw [program_bare, program_bare, Geometry.exact, Geometry.map_map]

end Bare

abbrev Point := EuclideanSpace ℝ (Fin 3)

-- the axes are numbered with one proof that there are any
instance three_neZero : NeZero 3 := inferInstance

namespace Space

noncomputable section

def vector (t : Triple Exact) : Point := !₂[t.x.written, t.y.written, t.z.written]

def moved (w : Placement Exact) (p : Point) : Point :=
  match w with
  | .shift v => p - vector v
  | .shrink k => k.written • p
  | .turn m => !₂[inner ℝ p (vector m.x), inner ℝ p (vector m.y), inner ℝ p (vector m.z)]

def far : ℝ := 1000000000

def slab (h : Exact) (p : Point) : ℝ := max (-p 2) (p 2 - h.written)

def block (x y h : Exact) (p : Point) : ℝ :=
  max (max (|p 0| - x.written) (|p 1| - y.written)) (slab h p)

def globe (r : Exact) (p : Point) : ℝ := dist p !₂[0, 0, r.written] - r.written

def pillar (r h : Exact) (p : Point) : ℝ := max (‖!₂[p 0, p 1]‖ - r.written) (slab h p)

def reading : Reading Exact (Point → ℝ) where
  empty _ := far
  full _ := -far
  min f g p := min (f p) (g p)
  max f g p := max (f p) (g p)
  neg f p := -f p
  box := block
  ball := globe
  rod := pillar
  sample f w p := f (moved w p)
  times f k p := f p * k.written

def reach [Turning] (g : Geometry Exact) (p : Point) : ℝ := reading.program (program g) p

end

theorem reach_eq_tree [Turning] (g : Geometry Exact) : reach g = reading.tree g :=
  Reading.program_eq_tree g

end Space

end Shader

end DistanceField
