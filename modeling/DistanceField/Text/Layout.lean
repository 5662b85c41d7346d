import DistanceField.Text.Calendar

/-! Times written after a layout. A layout is the text of one certain moment, the second of January
2006, 15:04:05: its parts stand for the same parts of other moments. All times are universal. -/
namespace DistanceField.Layout

structure Moment where
  calendar : Calendar
  nanosecond : Nat
  weekday : Nat
  yearDay : Nat

def daysBefore (month : Nat) : Nat :=
  total ([31, 28, 31, 30, 31, 30, 31, 31, 30, 31, 30, 31].take (month - 1))

def isLeap (y : Int) : Bool := y % 4 == 0 && (y % 100 != 0 || y % 400 == 0)

/-- The moment so many nanoseconds after the start of 1970, which was a Thursday. -/
def Moment.ofNanoseconds (n : Int) : Moment :=
  let seconds := n.fdiv 1000000000
  let c := Calendar.ofSeconds seconds
  { calendar := c
    nanosecond := (n.fmod 1000000000).toNat
    weekday := ((seconds.fdiv 86400 + 4).fmod 7).toNat
    yearDay := daysBefore c.month + c.day + if c.month > 2 && isLeap c.year then 1 else 0 }

def months : List Bytes :=
  ["January", "February", "March", "April", "May", "June", "July", "August", "September", "October",
    "November", "December"]

def weekdays : List Bytes :=
  ["Sunday", "Monday", "Tuesday", "Wednesday", "Thursday", "Friday", "Saturday"]

def month (m : Moment) : Bytes := (months[m.calendar.month - 1]?).getD []

def weekday (m : Moment) : Bytes := (weekdays[m.weekday]?).getD []

def clockHour (m : Moment) : Nat := if m.calendar.hour % 12 == 0 then 12 else m.calendar.hour % 12

def spaced (n : Nat) : Bytes := if n < 10 then 32 :: Bytes.ofNat n else Bytes.ofNat n

structure Part where
  name : String
  write : Moment → Bytes

/-- Of two parts that fit the earlier counts. -/
def parts : List Part :=
  [⟨"January", month⟩, ⟨"Jan", fun m => (month m).take 3⟩, ⟨"Monday", weekday⟩,
    ⟨"Mon", fun m => (weekday m).take 3⟩, ⟨"MST", fun _ => "UTC"⟩,
    ⟨"002", fun m => Calendar.padded 3 m.yearDay⟩,
    ⟨"01", fun m => Calendar.padded 2 m.calendar.month⟩,
    ⟨"02", fun m => Calendar.padded 2 m.calendar.day⟩,
    ⟨"03", fun m => Calendar.padded 2 (clockHour m)⟩,
    ⟨"04", fun m => Calendar.padded 2 m.calendar.minute⟩,
    ⟨"05", fun m => Calendar.padded 2 m.calendar.second⟩,
    ⟨"06", fun m => Calendar.padded 2 (m.calendar.year % 100).toNat⟩,
    ⟨"15", fun m => Calendar.padded 2 m.calendar.hour⟩, ⟨"1", fun m => Bytes.ofNat m.calendar.month⟩,
    ⟨"2006", fun m => Calendar.yearText m.calendar.year⟩, ⟨"2", fun m => Bytes.ofNat m.calendar.day⟩,
    ⟨"_2006", fun m => 95 :: Calendar.yearText m.calendar.year⟩,
    ⟨"__2", fun m => Bytes.spaces (3 - (Bytes.ofNat m.yearDay).length) ++ Bytes.ofNat m.yearDay⟩,
    ⟨"_2", fun m => spaced m.calendar.day⟩, ⟨"3", fun m => Bytes.ofNat (clockHour m)⟩,
    ⟨"4", fun m => Bytes.ofNat m.calendar.minute⟩, ⟨"5", fun m => Bytes.ofNat m.calendar.second⟩,
    ⟨"PM", fun m => if m.calendar.hour < 12 then "AM" else "PM"⟩,
    ⟨"pm", fun m => if m.calendar.hour < 12 then "am" else "pm"⟩,
    ⟨"-07:00:00", fun _ => "+00:00:00"⟩, ⟨"-070000", fun _ => "+000000"⟩,
    ⟨"-07:00", fun _ => "+00:00"⟩, ⟨"-0700", fun _ => "+0000"⟩, ⟨"-07", fun _ => "+00"⟩,
    ⟨"Z07:00:00", fun _ => "Z"⟩, ⟨"Z070000", fun _ => "Z"⟩, ⟨"Z07:00", fun _ => "Z"⟩,
    ⟨"Z0700", fun _ => "Z"⟩, ⟨"Z07", fun _ => "Z"⟩]

/-- A fraction of the second has as many digits as there are zeros; nines leave zeros at the end
away. -/
def fraction (point digit : UInt8) (width : Nat) (m : Moment) : Bytes :=
  let digits := (Calendar.padded 9 m.nanosecond).take width
  if digit == 48 then point :: digits
  else match (digits.reverse.dropWhile (· == 48)).reverse with
    | [] => []
    | ds => point :: ds

def isDigit (c : UInt8) : Bool := 48 ≤ c && c ≤ 57

def fraction? (m : Moment) : Bytes → Option (Bytes × Nat)
  | point :: digit :: rest =>
    let run := (rest.takeWhile (· == digit)).length
    if (point == 46 || point == 44) && (digit == 48 || digit == 57) &&
        !((rest.drop run).head?.any isDigit) then
      some (fraction point digit (run + 1) m, run + 2)
    else none
  | _ => none

/-- Short names end where no small letter follows. -/
def endsWord (name : String) (rest : Bytes) : Bool :=
  !(name == "Jan" || name == "Mon") || !(rest.head?.any fun c => 97 ≤ c && c ≤ 122)

def part? (m : Moment) (layout : Bytes) : Option (Bytes × Nat) :=
  (parts.findSome? fun p => do
    let rest ← Bytes.after? p.name layout
    if endsWord p.name rest then some (p.write m, p.name.length) else none).or (fraction? m layout)

def writeFrom (m : Moment) : (fuel : Nat) → Bytes → Bytes
  | 0, _ => []
  | _, [] => []
  | fuel + 1, c :: rest =>
    match part? m (c :: rest) with
    | some (text, n) => text ++ writeFrom m fuel ((c :: rest).drop n)
    | none => c :: writeFrom m fuel rest

def write (m : Moment) (layout : Bytes) : Bytes := writeFrom m layout.length layout

end DistanceField.Layout
