import DistanceField.Shader.Literal

/-! Distance functions as generated: a list of helpers, each calling earlier ones only, and the
distance itself. All of them are expressions in the sampled point. -/
namespace DistanceField.Shader

structure Triple (α : Type) where
  x : α
  y : α
  z : α
deriving DecidableEq, Repr

/-- Where a helper is sampled: moved back by a vector, multiplied by a factor, or turned by the
rows of a matrix. -/
inductive Placement (α : Type) where
  | shift (offset : Triple α)
  | shrink (factor : α)
  | turn (rows : Triple (Triple α))

/-- A distance at the sampled point. The boxes, rods and balls stand on the origin. -/
inductive Distance (α : Type) where
  | empty
  | full
  | min (a b : Distance α)
  | max (a b : Distance α)
  | neg (a : Distance α)
  | box (halfX halfY height : α)
  | ball (radius : α)
  | rod (radius height : α)
  | sample (helper : Nat) (place : Placement α)
  | times (a : Distance α) (factor : α)

structure Program (α : Type) where
  helpers : List (Distance α)
  distance : Distance α

namespace Write

def call (f : Bytes) (args : List Bytes) : Bytes := f ++ "(" ++ Bytes.join "," args ++ ")"

def vector (x y z : Bytes) : Bytes := call "vec3" [x, y, z]

variable {α : Type} (lit : α → Bytes)

def triple (t : Triple α) : Bytes := vector (lit t.x) (lit t.y) (lit t.z)

def dot (t : Triple α) : Bytes := call "dot" ["p", triple lit t]

def placement : Placement α → Bytes
  | .shift v => "p-" ++ triple lit v
  | .shrink k => "p*" ++ lit k
  | .turn m => vector (dot lit m.x) (dot lit m.y) (dot lit m.z)

def helperName (i : Nat) : Bytes := "f" ++ Bytes.ofNat i

def between (h : α) : Bytes := call "max" ["-p.z", "p.z-" ++ lit h]

def distance : Distance α → Bytes
  | .empty => "1e9"
  | .full => "-1e9"
  | .min a b => call "min" [distance a, distance b]
  | .max a b => call "max" [distance a, distance b]
  | .neg a => "-(" ++ distance a ++ ")"
  | .box x y h =>
    call "max" [call "max" ["abs(p.x)-" ++ lit x, "abs(p.y)-" ++ lit y], between lit h]
  | .ball r => "distance(p," ++ vector "0.0" "0.0" (lit r) ++ ")-" ++ lit r
  | .rod r h => call "max" ["length(p.xy)-" ++ lit r, between lit h]
  | .sample i w => helperName i ++ "(" ++ placement lit w ++ ")"
  | .times a k => distance a ++ "*" ++ lit k

def definition (name body : Bytes) : Bytes :=
  "float " ++ name ++ "(vec3 p)\x7breturn " ++ body ++ ";\x7d"

def helpersFrom (i : Nat) : List (Distance α) → Bytes
  | [] => []
  | d :: rest => definition (helperName i) (distance lit d) ++ helpersFrom (i + 1) rest

end Write

/-- The helpers in order, the distance `de`, and `he`, which is empty. -/
def Program.write (p : Program Float) : Bytes :=
  Write.helpersFrom literal 0 p.helpers ++
    Write.definition "de" (Write.distance literal p.distance) ++
    Write.definition "he" (Write.distance literal .empty)

end DistanceField.Shader
