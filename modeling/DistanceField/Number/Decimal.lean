import DistanceField.Text.Bytes
import DistanceField.Number.Double

/-! Decimal text of doubles: the fewest digits that read back, and the ways to set them out. -/
namespace DistanceField

/-- The number `0.d₁d₂… * 10 ^ point`, its digits as text. -/
structure Decimal where
  digits : Bytes
  point : Int

namespace Decimal

/-- `num / den` is the value; an approximation must lie between `low / den` and `high / den`,
the ends included when `closed`. -/
structure Span where
  num : Nat
  low : Nat
  high : Nat
  den : Nat
  closed : Bool

/-- The reals that round to `m * 2 ^ e`, over a common denominator. -/
def span (m : Nat) (e : Int) : Span :=
  let below := if m == pow2 52 && e > -1074 then 1 else 2
  let up := pow2 e.toNat
  ⟨4 * m * up, (4 * m - below) * up, (4 * m + 2) * up, 4 * pow2 (-e).toNat, m % 2 == 0⟩

/-- Whether `k * unit` may stand for the value, `unit` being the fraction `up / down`. -/
def Span.accepts (s : Span) (k up down : Nat) : Bool :=
  let x := k * up * s.den
  let lo := s.low * down
  let hi := s.high * down
  if s.closed then lo ≤ x && x ≤ hi else lo < x && x < hi

/-- Of the two multiples of `up / down` around the value, the nearest one that stands for it; of two
equally near the even one comes first. -/
def Span.pick (s : Span) (up down : Nat) : Option Nat :=
  let k := s.num * down / (s.den * up)
  let near := Double.roundDiv (s.num * down) (s.den * up)
  let far := if near == k then k + 1 else k
  if s.accepts near up down then some near
  else if s.accepts far up down then some far
  else none

/-- The least `p` with the value below `10 ^ p`, searched downwards from above. -/
def Span.magnitude (s : Span) : (fuel : Nat) → Int → Int
  | 0, p => p
  | fuel + 1, p =>
    let q := p - 1
    if s.num * pow10 (-q).toNat < s.den * pow10 q.toNat then s.magnitude fuel q else p

def Span.search (s : Span) (p : Int) : (fuel n : Nat) → Nat × Nat
  | 0, n => (0, n)
  | fuel + 1, n =>
    let unit := p - n
    match s.pick (pow10 unit.toNat) (pow10 (-unit).toNat) with
    | some k => (k, n)
    | none => s.search p fuel (n + 1)

def stripZeros (d : Bytes) : Bytes := (d.reverse.dropWhile (· == 48)).reverse

/-- The fewest digits that stand for `m * 2 ^ e`, the nearest of those, a half going to the even
neighbour. -/
def shortest (m : Nat) (e : Int) : Decimal :=
  if m == 0 then ⟨[], 0⟩
  else
    let s := span m e
    let top : Int := (Nat.log2 m + e + 1) * 30103 / 100000 + 2
    let p := s.magnitude 8 top
    let (k, n) := s.search p 18 1
    let digits := Bytes.ofNat k
    ⟨stripZeros digits, p + digits.length - n⟩

def zeros (n : Nat) : Bytes := List.replicate n 48

def positional (d : Decimal) : Bytes :=
  let whole :=
    if d.point ≤ 0 then [48]
    else d.digits.take d.point.toNat ++ zeros (d.point.toNat - d.digits.length)
  let part :=
    if d.point ≤ 0 then (if d.digits.isEmpty then [] else zeros (-d.point).toNat ++ d.digits)
    else d.digits.drop d.point.toNat
  if part.isEmpty then whole else whole ++ 46 :: part

def exponent (d : Decimal) : Int := if d.digits.isEmpty then 0 else d.point - 1

def mantissa (d : Decimal) : Bytes :=
  match d.digits with
  | [] => [48]
  | [c] => [c]
  | c :: rest => c :: 46 :: rest

def scientific (width : Nat) (d : Decimal) : Bytes :=
  let e := d.exponent
  let text := Bytes.ofNat e.natAbs
  d.mantissa ++ 101 :: (if e < 0 then 45 else 43) :: zeros (width - text.length) ++ text

/-- How a number is set out: positional between two exponents, else scientific. -/
structure Layout where
  least : Int
  limit : Int
  width : Nat

def Layout.write (l : Layout) (d : Decimal) : Bytes :=
  if d.exponent < l.least || d.exponent ≥ l.limit then d.scientific l.width else d.positional

/-- Positional from `0.0001` up to six digits before the point; two digits in the exponent. -/
def general : Layout := ⟨-4, 6, 2⟩

/-- Positional from `0.000001` up to twenty-one digits; no padding in the exponent. -/
def plain : Layout := ⟨-6, 21, 1⟩

/-- Never positional; two digits in the exponent. -/
def exponential : Layout := ⟨0, 0, 2⟩

def signed (negative : Bool) (b : Bytes) : Bytes := if negative then 45 :: b else b

/-- A double under a layout; what is not finite is spelled out. -/
def text (l : Layout) (v : Float) : Bytes :=
  match Double.view v with
  | .nan => "NaN"
  | .infinite negative => (if negative then "-Inf" else "+Inf" : String)
  | .finite negative m e => signed negative (l.write (shortest m e))

def fixed (v : Float) : Bytes :=
  match Double.view v with
  | .finite negative m e => signed negative (shortest m e).positional
  | _ => text general v

/-- A double with `n` digits behind the point, a half going to the even neighbour. -/
def places (n : Nat) (v : Float) : Bytes :=
  match Double.view v with
  | .finite negative m e =>
    let scaled := if e ≥ 0 then m * pow2 e.toNat * pow10 n
      else Double.roundDiv (m * pow10 n) (pow2 (-e).toNat)
    let digits := Bytes.ofNat scaled
    let padded := zeros (n + 1 - digits.length) ++ digits
    let whole := padded.take (padded.length - n)
    signed negative (if n == 0 then whole else whole ++ 46 :: padded.drop (padded.length - n))
  | _ => text general v

end Decimal

end DistanceField
