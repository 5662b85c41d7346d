import DistanceField.Text.Bytes

/-! Splitting generated text into its definitions. -/
namespace DistanceField.Probe

structure Definition where
  name : Bytes
  body : Bytes
deriving DecidableEq, Repr

namespace Definition

def isWord (b : UInt8) : Bool :=
  (48 ≤ b && b ≤ 57) || (65 ≤ b && b ≤ 90) || (97 ≤ b && b ≤ 122) || b == 95

def head : Bytes := "float "

def middle : Bytes := "(vec3 p)\x7breturn "

def tail : Bytes := ";\x7d"

def write (d : Definition) : Bytes := head ++ d.name ++ middle ++ d.body ++ tail

def first? (code : Bytes) : Option (Definition × Bytes) := do
  let rest ← Bytes.after? head code
  let name := rest.takeWhile isWord
  if name.isEmpty then none
  else
    let rest ← Bytes.after? middle (rest.drop name.length)
    let body := rest.takeWhile (· != 59)
    let rest ← Bytes.after? tail (rest.drop body.length)
    some (⟨name, body⟩, rest)

structure Site where
  start : Nat
  stop : Nat
  definition : Definition
deriving DecidableEq, Repr

/-- The definitions of a text that starts at `offset`, from left to right and none inside another:
the first `taken` bytes belong to the one before. -/
def search (taken offset : Nat) : Bytes → List Site
  | [] => []
  | c :: rest =>
    match taken with
    | n + 1 => search n (offset + 1) rest
    | 0 =>
      match first? (c :: rest) with
      | none => search 0 (offset + 1) rest
      | some (d, _) =>
        ⟨offset, offset + d.write.length, d⟩ :: search (d.write.length - 1) (offset + 1) rest

def uncovered? (length stop : Nat) : List Site → Option Nat
  | [] => if stop == length then none else some stop
  | s :: rest => if s.start == stop then uncovered? length s.stop rest else some stop

def repeated? : List Definition → List Bytes → Option Bytes
  | [], _ => none
  | d :: ds, seen => if seen.contains d.name then some d.name else repeated? ds (d.name :: seen)

end Definition

end DistanceField.Probe
