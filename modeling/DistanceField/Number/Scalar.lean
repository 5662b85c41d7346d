import DistanceField.Number.Angle

/-! The numbers that solids are measured in. Everything that is computed for a solid uses these
operations only, so it can be read in double precision or in exact arithmetic. -/
namespace DistanceField

class Scalar (α : Type) extends Add α, Sub α, Neg α, Mul α, Div α where
  natural : Nat → α
  /-- Sine and cosine of an angle in degrees. -/
  sincos : α → α × α
  /-- The value kept within the bounds of written numbers. -/
  clamp : α → α

namespace Scalar

variable {α : Type} [Scalar α]

def zero : α := natural 0

def one : α := natural 1

def half (a : α) : α := a / natural 2

end Scalar

namespace Double

def bound : Float := 1000000

/-- Within the bound; not-a-number becomes zero. -/
def clamp (v : Float) : Float :=
  if v.isNaN then 0
  else if v > bound then bound
  else if v < -bound then -bound
  else v

end Double

instance : Scalar Float where
  natural := Nat.toFloat
  sincos d := Angle.sincos (Angle.radians d)
  clamp := Double.clamp

end DistanceField
