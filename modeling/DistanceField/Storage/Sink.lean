import DistanceField.Text.Bytes

/-! Output that may run full. -/
namespace DistanceField

/-- What was written, and how much there is room for; without a bound there is room for all. -/
structure Sink where
  limit : Option Nat := none
  written : Bytes := []
deriving DecidableEq, Repr

namespace Sink

def accepted (s : Sink) (b : Bytes) : Bytes :=
  match s.limit with
  | none => b
  | some n => b.take (n - s.written.length)

def write (s : Sink) (b : Bytes) : Bool × Sink :=
  let part := s.accepted b
  (part.length == b.length, { s with written := s.written ++ part })

def full : Bytes := "disk full"

end Sink

end DistanceField
