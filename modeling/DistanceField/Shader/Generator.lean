import DistanceField.Shader.Generate

/-! Generating text in one pass: a helper is written as soon as its body is known, and what samples
it goes on as text. A generator is kept from one tree to the next. -/
namespace DistanceField.Shader

structure Generator where
  text : Bytes
  helpers : Nat
deriving DecidableEq, Repr

namespace Generator

def new : Generator := ⟨[], 0⟩

def emit (name body : Bytes) (s : Generator) : Generator :=
  { s with text := s.text ++ Write.definition name body }

def place (body : Bytes) (w : Placement Float) (s : Generator) : Bytes × Generator :=
  let name := Write.helperName s.helpers
  (Write.call name [Write.placement literal w], { s with helpers := s.helpers + 1 }.emit name body)

def lift (body : Bytes) (z : Float) (s : Generator) : Bytes × Generator :=
  place body (.shift ⟨Scalar.zero, Scalar.zero, z⟩) s

def empty : Bytes := "1e9"

def full : Bytes := "-1e9"

def either (a b : Bytes) : Bytes := Write.call "min" [a, b]

def both (a b : Bytes) : Bytes := Write.call "max" [a, b]

def unite (ds : List Bytes) : Bytes := ds.foldl either empty

def intersect (ds : List Bytes) : Bytes := ds.foldl both full

def subtract : List Bytes → Bytes
  | [] => empty
  | d :: rest => rest.foldl (fun acc e => both acc ("-(" ++ e ++ ")")) d

def box (x y h : Float) : Bytes :=
  both (both ("abs(p.x)-" ++ literal x) ("abs(p.y)-" ++ literal y)) (Write.between literal h)

def ball (r : Float) : Bytes :=
  "distance(p," ++ Write.vector "0.0" "0.0" (literal r) ++ ")-" ++ literal r

def rod (r h : Float) : Bytes := both ("length(p.xy)-" ++ literal r) (Write.between literal h)

def shaped (shape : Shape) (param : Bytes → Float) (ds : List Bytes) (s : Generator) :
    Bytes × Generator :=
  let body := unite ds
  match shape with
  | .intersection => (intersect ds, s)
  | .diff => (subtract ds, s)
  | .box =>
    let (above, s) := lift body (param "z") s
    (either above (box (Scalar.half (param "x")) (Scalar.half (param "y")) (param "z")), s)
  | .cylinder =>
    let (above, s) := lift body (param "h") s
    (either above (rod (Scalar.half (param "d")) (param "h")), s)
  | .sphere =>
    let (above, s) := lift body (param "d") s
    (either above (ball (Scalar.half (param "d"))), s)
  | .trans => place body (.shift ⟨param "x", param "y", param "z"⟩) s
  | .rot => place body (.turn (turnBack (param "x") (param "y") (param "z"))) s
  | .arot =>
    let (turned, s) := place body (.turn (turnBack (param "x") (param "y") (param "z"))) s
    lift turned drop s
  | .scale =>
    let (small, s) := place body (.shrink (Scalar.one / param "r")) s
    (small ++ "*" ++ literal (param "r"), s)
  | .group | .union | .other _ => (body, s)

mutual

def distance : Geometry Float → Generator → Bytes × Generator
  | .mk _ shape params children, s =>
    let (ds, s) := distances children s
    shaped shape (Geometry.lookup shape params) ds s

def distances : List (Geometry Float) → Generator → List Bytes × Generator
  | [], s => ([], s)
  | g :: rest, s =>
    let (d, s) := distance g s
    let (ds, s) := distances rest s
    (d :: ds, s)

end

/-- Writes a tree. What was written and counted before is dropped. -/
def generate (s : Generator) (g : Geometry Float) : Generator :=
  let (d, s) := distance g { s with text := [], helpers := 0 }
  (s.emit "de" d).emit "he" empty

def run (s : Generator) : List (Geometry Float) → List Generator
  | [] => []
  | g :: rest =>
    let s := s.generate g
    s :: s.run rest

end Generator

end DistanceField.Shader
