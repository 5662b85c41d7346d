import DistanceField.Text.Bytes

/-! Half-open ranges of byte offsets, with an inclusive upper bound for carets. -/
namespace DistanceField

structure Interval where
  min : Int
  max : Int
deriving DecidableEq, Repr

namespace Interval

/-- Covers nothing; neutral for `union`. -/
def none : Interval := ⟨-1, -1⟩

def isEmpty (i : Interval) : Bool := i.min < 0 || i.max < i.min

def length (i : Interval) : Int := if i.isEmpty then 0 else i.max - i.min

def union (i j : Interval) : Interval :=
  if i.isEmpty then j
  else if j.isEmpty then i
  else ⟨Min.min i.min j.min, Max.max i.max j.max⟩

/-- A caret right behind the last byte still belongs to the interval. -/
def contains (i : Interval) (pos : Int) : Bool := !i.isEmpty && i.min ≤ pos && pos ≤ i.max

def text (i : Interval) (source : Bytes) : Bytes :=
  if i.isEmpty then [] else (source.take i.max.toNat).drop i.min.toNat

/-- Line and column behind the first bytes of a text, both counted from one. -/
def lineColumn (before : Bytes) : Nat × Nat :=
  before.foldl (fun place (c : UInt8) => if c == 10 then (place.1 + 1, 1) else (place.1, place.2 + 1)) (1, 1)

def position (i : Interval) (source : Bytes) : Nat × Nat := lineColumn (source.take i.min.toNat)

def toBytes (i : Interval) : Bytes := "[" ++ Bytes.ofInt i.min ++ "," ++ Bytes.ofInt i.max ++ ")"

end Interval

end DistanceField
