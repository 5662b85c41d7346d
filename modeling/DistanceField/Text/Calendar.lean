import DistanceField.Text.Bytes

/-! Dates of the Gregorian calendar from seconds since 1970. -/
namespace DistanceField

structure Calendar where
  year : Int
  month : Nat
  day : Nat
  hour : Nat
  minute : Nat
  second : Nat

namespace Calendar

/-- Years are counted from March, so that a leap day ends one. -/
def ofSeconds (t : Int) : Calendar :=
  let days := t.fdiv 86400
  let rest : Nat := (t.fmod 86400).toNat
  let z := days + 719468
  let era := z.fdiv 146097
  let doe : Nat := (z.fmod 146097).toNat
  let yoe : Nat := (doe - doe / 1460 + doe / 36524 - doe / 146096) / 365
  let doy : Nat := doe - (365 * yoe + yoe / 4 - yoe / 100)
  let mp : Nat := (5 * doy + 2) / 153
  let month := if mp < 10 then mp + 3 else mp - 9
  { year := yoe + era * 400 + (if month ≤ 2 then 1 else 0)
    month := month
    day := doy - (153 * mp + 2) / 5 + 1
    hour := rest / 3600
    minute := rest / 60 % 60
    second := rest % 60 }

def padded (width n : Nat) : Bytes :=
  let text := Bytes.ofNat n
  List.replicate (width - text.length) 48 ++ text

def yearText (y : Int) : Bytes :=
  if y < 0 then 45 :: padded 4 y.natAbs else padded 4 y.natAbs

def date (c : Calendar) : Bytes :=
  yearText c.year ++ "-" ++ padded 2 c.month ++ "-" ++ padded 2 c.day

def time (c : Calendar) : Bytes :=
  padded 2 c.hour ++ ":" ++ padded 2 c.minute ++ ":" ++ padded 2 c.second

def spelled (c : Calendar) : Bytes := c.date ++ " " ++ c.time ++ " +0000 UTC"

/-- `2009-11-10T23:00:00Z`, with a fraction of the second in between. -/
def stamp (part : Bytes) (c : Calendar) : Bytes := c.date ++ "T" ++ c.time ++ part ++ "Z"

end Calendar

end DistanceField
