import DistanceField.Text.Bytes
import DistanceField.Number.Integer

/-! Spans of time in nanoseconds, written in hours, minutes and seconds. -/
namespace DistanceField.Duration

def fraction (n places : Nat) : Bytes :=
  let text := Bytes.ofNat (n % pow10 places)
  let digits := List.replicate (places - text.length) 48 ++ text
  let kept := (digits.reverse.dropWhile (· == 48)).reverse
  if kept.isEmpty then [] else 46 :: kept

/-- Below a second in the largest fitting unit, above as `1h2m3.5s`. -/
def magnitude (n : Nat) : Bytes :=
  if n == 0 then "0s"
  else if n < 1000 then Bytes.ofNat n ++ "ns"
  else if n < 1000000 then Bytes.ofNat (n / 1000) ++ fraction n 3 ++ "µs"
  else if n < 1000000000 then Bytes.ofNat (n / 1000000) ++ fraction n 6 ++ "ms"
  else
    let s := n / 1000000000
    let seconds : Bytes := Bytes.ofNat (s % 60) ++ fraction n 9 ++ "s"
    let minutes : Bytes := if s < 60 then [] else Bytes.ofNat (s / 60 % 60) ++ "m"
    let hours : Bytes := if s < 3600 then [] else Bytes.ofNat (s / 3600) ++ "h"
    hours ++ minutes ++ seconds

def text (ns : Int) : Bytes :=
  if ns < 0 then 45 :: magnitude ns.natAbs else magnitude ns.natAbs

/-- To a whole number of microseconds, a half away from zero, within 64 bits. -/
def round (ns : Int) : Int :=
  let n : Nat := (ns.natAbs + 500) / 1000 * 1000
  if ns < 0 then max Integer.least (-n) else min Integer.greatest n

def rounded (ns : Int) : Bytes := text (round ns)

/-! Reading. -/

inductive Error where
  | malformed
  | missingUnit
  | unknownUnit (unit : Bytes)
deriving DecidableEq, Repr

/-- Quotes and backslashes are escaped, and all that is not ASCII is written by its bytes. -/
def quote (b : Bytes) : Bytes :=
  34 :: b.flatMap (fun c =>
    if c < 32 || c ≥ 128 then [92, 120] ++ Bytes.ofHex 2 c.toNat
    else if c == 34 || c == 92 then [92, c]
    else [c]) ++ [34]

def Error.message (b : Bytes) : Error → Bytes
  | .malformed => "time: invalid duration " ++ quote b
  | .missingUnit => "time: missing unit in duration " ++ quote b
  | .unknownUnit u => "time: unknown unit " ++ quote u ++ " in duration " ++ quote b

def unit? (b : Bytes) : Option Nat :=
  ([("ns", 1), ("us", 1000), ("µs", 1000), ("μs", 1000), ("ms", 1000000), ("s", 1000000000),
    ("m", 60000000000), ("h", 3600000000000)] : List (String × Nat)).findSome? fun (u, n) =>
      if Bytes.ofString u == b then some n else none

def isNumeric (c : UInt8) : Bool := c == 46 || Integer.isDigit c

/-- Digits as a number; none if it needs more than 63 bits. -/
def wholePart? (b : Bytes) : Option Nat :=
  let n := (Integer.natural? b).getD 0
  if n ≤ pow2 63 then some n else none

/-- Nanoseconds of a fraction of a unit, as far as 63 bits hold its digits. -/
def partOf (digits : Bytes) (unit : Nat) : Nat :=
  let kept := digits.foldl (fun (acc : Nat × Nat × Bool) c =>
    let (n, scale, full) := acc
    let next := n * 10 + (c.toNat - 48)
    if full || n > (pow2 63 - 1) / 10 || next > pow2 63 then (n, scale, true)
    else (next, scale * 10, false)) (0, 1, false)
  (Float.ofNat kept.1 * (Float.ofNat unit / Float.ofNat kept.2.1)).toUInt64.toNat

def sum (fuel total : Nat) (b : Bytes) : Except Error Nat :=
  match fuel, b with
  | _, [] => .ok total
  | 0, _ => .error .malformed
  | fuel + 1, c :: rest =>
    if !isNumeric c then .error .malformed
    else
      let b := c :: rest
      let whole := b.takeWhile Integer.isDigit
      let b := b.drop whole.length
      let (dot, digits) := match b with
        | 46 :: more => (1, more.takeWhile Integer.isDigit)
        | _ => (0, [])
      let b := b.drop (dot + digits.length)
      if whole.isEmpty && digits.isEmpty then .error .malformed
      else
        let unit := b.takeWhile fun c => !isNumeric c
        match wholePart? whole, unit? unit with
        | none, _ => .error .malformed
        | _, none => .error (if unit.isEmpty then .missingUnit else .unknownUnit unit)
        | some n, some u =>
          let total := total + n * u + (if digits.isEmpty then 0 else partOf digits u)
          if n * u > pow2 63 || total > pow2 63 then .error .malformed
          else sum fuel total (b.drop unit.length)

/-- A sign and numbers with units, such as `1h30m` or `-1.5s`; a zero needs no unit. -/
def read (b : Bytes) : Except Error Int :=
  let (negative, body) := match b with
    | 45 :: rest => (true, rest)
    | 43 :: rest => (false, rest)
    | _ => (false, b)
  if body == [48] then .ok 0
  else if body.isEmpty then .error .malformed
  else do
    let n ← sum body.length 0 body
    if negative then .ok (-n) else if n ≤ pow2 63 - 1 then .ok n else .error .malformed

end DistanceField.Duration
