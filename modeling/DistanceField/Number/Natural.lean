/-! Natural numbers: powers of the two bases, and sums. -/
namespace DistanceField

def pow2 (n : Nat) : Nat := Nat.pow 2 n

def pow10 (n : Nat) : Nat := Nat.pow 10 n

def total : List Nat → Nat
  | [] => 0
  | n :: ns => n + total ns

end DistanceField
