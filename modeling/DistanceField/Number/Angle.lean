import DistanceField.Number.Double

/-! Sine and cosine together: the angle is reduced to an octant, and one polynomial of degree
twelve gives each function there. -/
namespace DistanceField.Angle

def bits (n : UInt64) : Float := Float.ofBits n

/-- A quarter of π in three parts, the first two with trailing zero bits. -/
def quarterHigh : Float := bits 0x3fe921fb40000000
def quarterMid : Float := bits 0x3e64442d00000000
def quarterLow : Float := bits 0x3ce8469898cc5170

def pi : Float := bits 0x400921fb54442d18

/-- The words of the binary fraction of `4 / π`, its whole part first. -/
def fourOverPi : List Nat := [
  0x1, 0x45f306dc9c882a53, 0xf84eafa3ea69bb81, 0xb6c52b3278872083, 0xfca2c757bd778ac3,
  0x6e48dc74849ba5c0, 0x0c925dd413a32439, 0xfc3bd63962534e7d, 0xd1046bea5d768909,
  0xd338e04d68befc82, 0x7323ac7306a673e9, 0x3908bf177bf25076, 0x3ff12fffbc0b301f,
  0xde5e2316b414da3e, 0xda6cfd9e4f96136e, 0x9e8c7ecd3cbfd45a, 0xea4f758fd7cbe2f6,
  0x7a0e73ef14a525d4, 0xd7f6bf623f1aba10, 0xac06608df8f6d757]

def word (i : Nat) : Nat := fourOverPi.getD i 0

def window (i shift : Nat) : Nat :=
  (word i * pow2 shift) % pow2 64 + word (i + 1) / pow2 (64 - shift)

def reduceHuge (x : Float) : Nat × Float :=
  let b := x.toBits.toNat
  let e : Int := (b / pow2 52 % 2048 : Nat) - 1075
  let ix := b % pow2 52 + pow2 52
  let digit := ((e + 61) / 64).toNat
  let shift := ((e + 61) % 64).toNat
  let z0 := window digit shift
  let z1 := window (digit + 1) shift
  let z2 := window (digit + 2) shift
  let lo := z1 * ix % pow2 64 + z2 * ix / pow2 64
  let hi := (z0 * ix + z1 * ix / pow2 64 + lo / pow2 64) % pow2 64
  let lo := lo % pow2 64
  let j := hi / pow2 61
  let hi := (hi * 8) % pow2 64 + lo / pow2 61
  let lz := if hi == 0 then 64 else 63 - Nat.log2 hi
  let hi := ((hi * pow2 (lz + 1)) % pow2 64) ||| (lo / pow2 (64 - (lz + 1)))
  let z := Float.ofBits (Nat.toUInt64 (hi / pow2 12 + (1023 - (lz + 1)) * pow2 52))
  let (j, z) := if j % 2 == 1 then ((j + 1) % 8, z - 1) else (j, z)
  (j, z * (pi / 4))

/-- The octant of an angle and what is left of it, between minus and plus a quarter of π. -/
def reduce (x : Float) : Nat × Float :=
  if x < 536870912 then
    let n := (x * (4 / pi)).toUInt64.toNat
    let n := if n % 2 == 1 then n + 1 else n
    let y := n.toFloat
    (n % 8, ((x - y * quarterHigh) - y * quarterMid) - y * quarterLow)
  else reduceHuge x

def sinPoly (z : Float) : Float :=
  let zz := z * z
  z + z * zz * ((((((bits 0x3de5d8fd1fd19ccd * zz) + bits 0xbe5ae5e5a9291f5d) * zz
    + bits 0x3ec71de3567d48a1) * zz + bits 0xbf2a01a019bfdf03) * zz
    + bits 0x3f8111111110f7d0) * zz + bits 0xbfc5555555555548)

def cosPoly (z : Float) : Float :=
  let zz := z * z
  1 - 0.5 * zz + zz * zz * ((((((bits 0xbda8fa49a0861a9b * zz) + bits 0x3e21ee9d7b4e3f05) * zz
    + bits 0xbe927e4f7eac4bc6) * zz + bits 0x3efa01a019c844f5) * zz
    + bits 0xbf56c16c16c14f91) * zz + bits 0x3fa555555555554b)

def signed (negative : Bool) (v : Float) : Float := if negative then -v else v

def sincos (x : Float) : Float × Float :=
  if x == 0 then (x, 1)
  else match Double.view x with
    | .nan | .infinite _ => (Double.nan, Double.nan)
    | .finite negative _ _ =>
      let (j, z) := reduce x.abs
      let flip := j > 3
      let j := if flip then j - 4 else j
      let sinNegative := negative != flip
      let cosNegative := flip != (j > 1)
      let s := sinPoly z
      let c := cosPoly z
      let (s, c) := if j == 1 || j == 2 then (c, s) else (s, c)
      (signed sinNegative s, signed cosNegative c)

def radians (degrees : Float) : Float := degrees * pi / 180

end DistanceField.Angle
