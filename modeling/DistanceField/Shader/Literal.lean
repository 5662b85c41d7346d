import DistanceField.Number.Scalar
import DistanceField.Number.Decimal

/-! Numbers in generated text. -/
namespace DistanceField.Shader

/-- Magnitudes below this are written with an exponent, zero apart. -/
def tiny : Float := 1e-6

/-- Magnitudes from this on are written with an exponent again. -/
def huge : Float := 1e21

/-- A number with an exponent, without the zeros that the exponent starts with. -/
def trimmed (text : Bytes) : Bytes :=
  let (front, power) := (Bytes.cut 101 text).getD (text, [])
  front ++ 101 :: (power.take 1 ++ (power.drop 1).dropWhile (· == 48))

/-- The shortest text that reads back; both zeros are written alike, and so is what is not finite. -/
def number (v : Float) : Bytes :=
  if v == 0 || v.isNaN || v.isInf then [48]
  else if tiny ≤ v.abs && v.abs < huge then Decimal.fixed v
  else trimmed (Decimal.text Decimal.exponential v)

def literal (v : Float) : Bytes := "float(" ++ number (Scalar.clamp v) ++ ")"

end DistanceField.Shader
