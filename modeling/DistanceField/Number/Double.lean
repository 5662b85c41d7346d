import DistanceField.Number.Natural

/-! The double precision numbers as exact values: a sign and `m * 2 ^ e`. -/
namespace DistanceField.Double

inductive View where
  | nan
  | infinite (negative : Bool)
  | finite (negative : Bool) (m : Nat) (e : Int)

def view (v : Float) : View :=
  let bits := v.toBits.toNat
  let negative := bits / pow2 63 == 1
  let field : Nat := bits / pow2 52 % 2048
  let low : Nat := bits % pow2 52
  if field == 2047 then (if low == 0 then .infinite negative else .nan)
  else if field == 0 then .finite negative low (-1074)
  else .finite negative (low + pow2 52) ((field : Int) - 1075)

def isNegative (v : Float) : Bool := v.toBits.toNat / pow2 63 == 1

def infinity : Float := Float.ofBits 0x7FF0000000000000

def nan : Float := Float.ofBits 0x7FF8000000000001

def roundDiv (num den : Nat) : Nat :=
  let q := num / den
  let r := num % den
  if 2 * r > den || (2 * r == den && q % 2 == 1) then q + 1 else q

/-- The exponent `e` at which `num / den` has 53 binary digits left of the point, but not below
the least exponent of a double. -/
def exponent (num den : Nat) : Int :=
  let guess : Int := (Nat.log2 num : Int) - Nat.log2 den - 52
  let scaled := if guess ≥ 0 then num ≥ den * pow2 (guess.toNat + 52)
    else num * pow2 (-guess).toNat ≥ den * pow2 52
  max (if scaled then guess else guess - 1) (-1074)

def ofParts (m : Nat) (e : Int) : Float :=
  let (m, e) := if m == pow2 53 then (pow2 52, e + 1) else (m, e)
  if e > 971 then infinity
  else if m < pow2 52 then Float.ofBits m.toUInt64
  else Float.ofBits ((m - pow2 52) + (e + 1075).toNat * pow2 52).toUInt64

/-- The double nearest to `num / den`, the even one of two; infinite when out of range. -/
def nearest (num den : Nat) : Float :=
  if num == 0 || den == 0 then 0
  else
    let e := exponent num den
    let m := if e ≥ 0 then roundDiv num (den * pow2 e.toNat) else roundDiv (num * pow2 (-e).toNat) den
    ofParts m e

end DistanceField.Double
