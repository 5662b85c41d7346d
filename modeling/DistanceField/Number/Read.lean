import DistanceField.Number.Double
import DistanceField.Text.Quoted

/-! Reading a double: decimal and hexadecimal numbers, underscores between digits, infinities and
not-a-number. -/
namespace DistanceField.Read

inductive Error where
  | malformed
  | outOfRange
deriving DecidableEq, Repr

def Error.message (text : Bytes) (e : Error) : Bytes :=
  let why : Bytes := match e with
    | .malformed => "invalid syntax"
    | .outOfRange => "value out of range"
  "strconv.ParseFloat: parsing " ++ Quoted.quote text ++ ": " ++ why

/-- What was read; an error still has a value, zero or an infinity. -/
structure Outcome where
  value : Float
  error : Option Error

def isDigit (c : UInt8) : Bool := 48 ≤ c && c ≤ 57

def hexValue? (c : UInt8) : Option Nat :=
  if isDigit c then some (c.toNat - 48)
  else
    let l := Bytes.lowerByte c
    if 97 ≤ l && l ≤ 102 then some (l.toNat - 87) else none

def digit? (base : Nat) (c : UInt8) : Option Nat :=
  if base == 16 then hexValue? c else if isDigit c then some (c.toNat - 48) else none

/-- Digits so far: their value, how many stand behind the point, whether there is a point, any
digit, any underscore. -/
structure Digits where
  value : Nat := 0
  places : Nat := 0
  dot : Bool := false
  any : Bool := false
  underscore : Bool := false

def digits (base : Nat) : Digits → Bytes → Digits × Bytes
  | d, [] => (d, [])
  | d, c :: rest =>
    if c == 95 then digits base { d with underscore := true } rest
    else if c == 46 then
      if d.dot then (d, c :: rest) else digits base { d with dot := true } rest
    else match digit? base c with
      | some k =>
        digits base { d with value := d.value * base + k, any := true,
                             places := if d.dot then d.places + 1 else d.places } rest
      | none => (d, c :: rest)

/-- An exponent stops growing at ten thousand. -/
def exponentDigits : Nat → Bool → Bytes → Nat × Bool × Bytes
  | e, u, [] => (e, u, [])
  | e, u, c :: rest =>
    if c == 95 then exponentDigits e true rest
    else if isDigit c then exponentDigits (if e < 10000 then e * 10 + (c.toNat - 48) else e) u rest
    else (e, u, c :: rest)

inductive Last where
  | start
  | digit
  | underscore
  | other
deriving DecidableEq

def underscoresFrom (hex : Bool) : Last → Bytes → Bool
  | l, [] => l != .underscore
  | l, c :: rest =>
    if isDigit c || (hex && (hexValue? c).isSome) then underscoresFrom hex .digit rest
    else if c == 95 then l == .digit && underscoresFrom hex .underscore rest
    else l != .underscore && underscoresFrom hex .other rest

/-- Each underscore stands between two digits; the mark of a base counts as a digit. -/
def underscoresOk (b : Bytes) : Bool :=
  match b with
  | 48 :: m :: rest =>
    let l := Bytes.lowerByte m
    if l == 120 then underscoresFrom true .digit rest
    else if l == 98 || l == 111 then underscoresFrom false .digit rest
    else underscoresFrom false .start b
  | _ => underscoresFrom false .start b

def sign (b : Bytes) : Bool × Bytes :=
  match b with
  | 45 :: rest => (true, rest)
  | 43 :: rest => (false, rest)
  | _ => (false, b)

def ofDecimal (value : Nat) (e : Int) : Float :=
  if value == 0 then 0
  else if (Nat.log2 value : Int) * 3 / 10 + e > 400 then Double.infinity
  else if (Nat.log2 value : Int) / 3 + 1 + e < -400 then 0
  else Double.nearest (value * pow10 e.toNat) (pow10 (-e).toNat)

def ofBinary (value : Nat) (e : Int) : Float :=
  if value == 0 then 0
  else if (Nat.log2 value : Int) + e > 1100 then Double.infinity
  else if (Nat.log2 value : Int) + e < -1200 then 0
  else Double.nearest (value * pow2 e.toNat) (pow2 (-e).toNat)

def malformed : Outcome := ⟨0, some .malformed⟩

def finish (negative : Bool) (v : Float) : Outcome :=
  let signed := if negative then -v else v
  if v == Double.infinity then ⟨signed, some .outOfRange⟩ else ⟨signed, none⟩

/-- The exponent part: its value, whether it holds underscores; `none` when malformed. -/
def exponent? (mark : UInt8) (needed : Bool) (b : Bytes) : Option (Int × Bool) :=
  match b with
  | [] => if needed then none else some (0, false)
  | c :: rest =>
    if Bytes.lowerByte c == mark then
      let (negative, rest) := sign rest
      match rest with
      | [] => none
      | d :: _ =>
        if !isDigit d then none
        else match exponentDigits 0 false rest with
          | (e, u, []) => some (if negative then -(e : Int) else e, u)
          | _ => none
    else none

def marked : Bytes → Bool
  | 48 :: m :: _ => Bytes.lowerByte m == 120
  | _ => false

def numeric (b : Bytes) : Outcome :=
  let (negative, body) := sign b
  let hex := marked body
  let base := if hex then 16 else 10
  let (d, rest) := digits base {} (if hex then body.drop 2 else body)
  if !d.any then malformed
  else match exponent? (if hex then 112 else 101) hex rest with
    | none => malformed
    | some (e, u) =>
      if (d.underscore || u) && !underscoresOk body then malformed
      else if hex then finish negative (ofBinary d.value (e - 4 * d.places))
      else finish negative (ofDecimal d.value (e - d.places))

def special? (b : Bytes) : Option Float :=
  let l := b.map Bytes.lowerByte
  let (negative, word) := sign l
  if l == ("nan" : Bytes) then some Double.nan
  else if word == ("inf" : Bytes) || word == ("infinity" : Bytes) then
    some (if negative then -Double.infinity else Double.infinity)
  else none

def double (b : Bytes) : Outcome :=
  match special? b with
  | some v => ⟨v, none⟩
  | none => numeric b

end DistanceField.Read
