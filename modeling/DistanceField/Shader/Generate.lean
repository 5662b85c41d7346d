import DistanceField.Shader.Program
import DistanceField.Solid.Geometry

/-! The program of a geometry tree. A tree is moved by sampling it at the moved-back point, which
needs it as a helper. -/
namespace DistanceField.Shader

variable {α : Type} [Scalar α]

def unite (ds : List (Distance α)) : Distance α := ds.foldl .min .empty

def intersect (ds : List (Distance α)) : Distance α := ds.foldl .max .full

/-- The first without all others; nothing without a first. -/
def subtract : List (Distance α) → Distance α
  | [] => .empty
  | d :: rest => rest.foldl (fun acc e => .max acc (.neg e)) d

/-- Rows of the matrix that turns a point back about Z, Y and X. -/
def turnBack (x y z : α) : Triple (Triple α) :=
  let (sa, ca) := Scalar.sincos (-x)
  let (sb, cb) := Scalar.sincos (-y)
  let (sc, cc) := Scalar.sincos (-z)
  ⟨⟨cb * cc, cc * sa * sb - ca * sc, ca * cc * sb + sa * sc⟩,
   ⟨cb * sc, ca * cc + sa * sb * sc, -cc * sa + ca * sb * sc⟩,
   ⟨-sb, cb * sa, ca * cb⟩⟩

def drop : α := -(Scalar.natural 3 / Scalar.natural 2)

def place (body : Distance α) (w : Placement α) (hs : List (Distance α)) :
    Distance α × List (Distance α) :=
  (.sample hs.length w, hs ++ [body])

def lift (body : Distance α) (z : α) (hs : List (Distance α)) :
    Distance α × List (Distance α) :=
  place body (.shift ⟨Scalar.zero, Scalar.zero, z⟩) hs

def shaped (shape : Shape) (param : Bytes → α) (ds : List (Distance α)) (hs : List (Distance α)) :
    Distance α × List (Distance α) :=
  let body := unite ds
  match shape with
  | .intersection => (intersect ds, hs)
  | .diff => (subtract ds, hs)
  | .box =>
    let (above, hs) := lift body (param "z") hs
    (.min above (.box (Scalar.half (param "x")) (Scalar.half (param "y")) (param "z")), hs)
  | .cylinder =>
    let (above, hs) := lift body (param "h") hs
    (.min above (.rod (Scalar.half (param "d")) (param "h")), hs)
  | .sphere =>
    let (above, hs) := lift body (param "d") hs
    (.min above (.ball (Scalar.half (param "d"))), hs)
  | .trans => place body (.shift ⟨param "x", param "y", param "z"⟩) hs
  | .rot => place body (.turn (turnBack (param "x") (param "y") (param "z"))) hs
  | .arot =>
    let (turned, hs) := place body (.turn (turnBack (param "x") (param "y") (param "z"))) hs
    lift turned drop hs
  | .scale =>
    let (small, hs) := place body (.shrink (Scalar.one / param "r")) hs
    (.times small (param "r"), hs)
  | .group | .union | .other _ => (body, hs)

mutual

def distance : Geometry α → List (Distance α) → Distance α × List (Distance α)
  | .mk _ shape params children, hs =>
    let (ds, hs) := distances children hs
    shaped shape (Geometry.lookup shape params) ds hs

def distances : List (Geometry α) → List (Distance α) → List (Distance α) × List (Distance α)
  | [], hs => ([], hs)
  | g :: rest, hs =>
    let (d, hs) := distance g hs
    let (ds, hs) := distances rest hs
    (d :: ds, hs)

end

def program (g : Geometry α) : Program α :=
  let (d, hs) := distance g []
  ⟨hs, d⟩

def generate (g : Geometry Float) : Bytes := (program g).write

end DistanceField.Shader
