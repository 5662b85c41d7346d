import DistanceField.Text.Bytes

/-! Reading decimal integers of 64 bits. -/
namespace DistanceField.Integer

def isDigit (b : UInt8) : Bool := 48 ≤ b && b ≤ 57

def natural? (b : Bytes) : Option Nat :=
  if b.isEmpty || !b.all isDigit then none
  else some (b.foldl (fun (n : Nat) c => 10 * n + (c.toNat - 48)) 0)

def least : Int := -pow2 63

def greatest : Int := pow2 63 - 1

def inRange? (n : Int) : Option Int := if least ≤ n && n ≤ greatest then some n else none

def wrap (n : Int) : Int := n.bmod (pow2 64)

def read? (b : Bytes) : Option Int :=
  match b with
  | 45 :: rest => (natural? rest).bind fun n => inRange? (-n)
  | 43 :: rest => (natural? rest).bind fun n => inRange? n
  | rest => (natural? rest).bind fun n => inRange? n

def bool? (b : Bytes) : Option Bool :=
  if ["1", "t", "T", "TRUE", "true", "True"].any (fun s => Bytes.ofString s == b) then some true
  else if ["0", "f", "F", "FALSE", "false", "False"].any (fun s => Bytes.ofString s == b) then
    some false
  else none

end DistanceField.Integer
