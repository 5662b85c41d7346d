import DistanceField.Log.Config
import DistanceField.Log.Value
import DistanceField.Text.Json

/-! Records without colour: one JSON object or one line of pairs. Groups nest in the object and
are dotted names in the pairs. -/
namespace DistanceField.Log

/-- A record being written. `depth` counts the groups around the next attribute. -/
structure Line where
  text : Bytes
  sep : Bytes
  lead : Bytes
  depth : Nat

namespace Line

/-- Whether a byte below 128 forces quotes in a pair. -/
def breaksPair (n : Nat) : Bool := n ≤ 32 || n == 34 || n == 61

def needsQuotes (b : Bytes) : Bool :=
  b.isEmpty || (Utf8.pieces b).any fun (c, _, _) =>
    if c.toNat < 128 then breaksPair c.toNat
    else c == Utf8.replacement || Letter.isSpace c || !Printable.isPrintable c

def string (f : Format) (b : Bytes) : Bytes :=
  match f with
  | .json => Json.quoteFor .log b
  | .text => if needsQuotes b then Quoted.quote b else b

def between : Format → Bytes
  | .json => ","
  | .text => " "

def number (v : Float) : Bytes :=
  match Double.view v with
  | .finite _ _ _ => Decimal.text Decimal.plain v
  | _ => string .json ("!ERROR:json: unsupported value: " ++ Decimal.text Decimal.general v)

/-- A year of more than four digits is complained of in front of the time. -/
def yearTrouble (s : Int) : Bytes :=
  let year := (Calendar.ofSeconds s).year
  if 0 ≤ year && year < 10000 then []
  else string .json "!ERROR:time.Time year outside of range [0,9999]"

/-- A time with three digits of the second, cut out of four at a fixed column. -/
def millis (s : Int) : Bytes :=
  let t := (Calendar.ofSeconds s).stamp ".0001"
  t.take 23 ++ t.drop 24

def scalar (f : Format) (v : Value) : Bytes :=
  match f, v with
  | f, .text b => string f b
  | _, .integer n => Bytes.ofInt n
  | _, .bool b => (if b then "true" else "false" : String)
  | .json, .float v => number v
  | .text, .float v => Decimal.text Decimal.general v
  | .json, .duration ns => Bytes.ofInt ns
  | .text, .duration ns => Duration.text ns
  | .json, .time s => yearTrouble s ++ string .json ((Calendar.ofSeconds s).stamp [])
  | .text, .time s => millis s
  | .json, .null => "null"
  | f, v => string f v.display

def key (f : Format) (l : Line) (k : Bytes) : Line :=
  let mark : Bytes := match f with
    | .json => ":"
    | .text => "="
  { l with text := l.text ++ l.sep ++ string f (l.lead ++ k) ++ mark, sep := between f }

def openGroup (f : Format) (l : Line) (name : Bytes) : Line :=
  match f with
  | .json => { l.key f name with text := (l.key f name).text ++ "\x7b", sep := [], depth := l.depth + 1 }
  | .text => { l with lead := l.lead ++ name ++ ".", depth := l.depth + 1 }

def closeGroup (f : Format) (l : Line) (name : Bytes) : Line :=
  match f with
  | .json => { l with text := l.text ++ "\x7d", sep := between f, depth := l.depth - 1 }
  | .text =>
    { l with lead := l.lead.take (l.lead.length - name.length - 1), sep := between f, depth := l.depth - 1 }

/-- Outside all groups the time follows the layout, none dropping it, and the level is in
capitals. Durations are rounded everywhere else. Nothing at all is dropped too. -/
def replace (layout : Bytes) (depth : Nat) (k : Bytes) (v : Value) : Option Value :=
  if depth == 0 && k == Bytes.ofString "time" then
    match v with
    | .time _ => if layout.isEmpty then none else some (.text layout)
    | v => some v
  else if depth == 0 && k == Bytes.ofString "level" then
    match v with
    | .level l => some (.text (Level.capitals l))
    | v => some v
  else match v with
    | .duration ns => some (.text (Duration.rounded ns))
    | .null => if k.isEmpty then none else some .null
    | v => some v

mutual

/-- Adds an attribute, and says whether anything was there to add. A group of which nothing is
left takes its text back. -/
def attr (f : Format) (layout : Bytes) (l : Line) : Attr → Bool × Line
  | .mk k (.group as) =>
    if as.isEmpty then (true, l)
    else
      let inner := attrs f layout (if k.isEmpty then l else l.openGroup f k) as
      if !inner.1 then (false, { inner.2 with text := l.text })
      else (true, if k.isEmpty then inner.2 else inner.2.closeGroup f k)
  | .mk k v =>
    match replace layout l.depth k v with
    | none => (false, l)
    | some v =>
      let l := l.key f k
      (true, { l with text := l.text ++ scalar f v })

def attrs (f : Format) (layout : Bytes) (l : Line) : List Attr → Bool × Line
  | [] => (false, l)
  | a :: rest =>
    let one := attr f layout l a
    let more := attrs f layout one.2 rest
    (one.1 || more.1, more.2)

end

end Line

/-- A writer of records with what was attached to it: attributes already written, and the groups
opened, of which the first `opened` stand in that text. -/
structure Plain where
  format : Format
  layout : Bytes
  written : Bytes := []
  lead : Bytes := []
  groups : List Bytes := []
  opened : Nat := 0

namespace Plain

def sepAfter (f : Format) (b : Bytes) : Bytes :=
  if b.isEmpty || (f == .json && b.getLast? == some 123) then [] else Line.between f

def openAll (p : Plain) (l : Line) : Line :=
  (p.groups.drop p.opened).foldl (Line.openGroup p.format) l

def withGroup (p : Plain) (name : Bytes) : Plain := { p with groups := p.groups ++ [name] }

def withAttrs (p : Plain) (as : List Attr) : Plain :=
  if as.all Attr.isEmptyGroup then p
  else
    let start : Line := ⟨p.written, sepAfter p.format p.written, p.lead, p.opened⟩
    let (any, l) := Line.attrs p.format p.layout (p.openAll start) (Attr.openedAll as)
    if any then { p with written := l.text, lead := l.lead, opened := p.groups.length } else p

def tail (p : Plain) (l : Line) (as : List Attr) : Bytes :=
  let before : Line :=
    if p.written.isEmpty then l
    else
      let sep := sepAfter p.format p.written
      { l with text := l.text ++ l.sep ++ p.written, sep }
  let shown := as.filter fun a => !a.isEmptyGroup
  let start := { before with lead := p.lead, depth := p.opened }
  let (any, l) := Line.attrs p.format p.layout (p.openAll start) (Attr.openedAll shown)
  let (text, n) := if any then (l.text, p.groups.length) else (before.text, p.opened)
  match p.format with
  | .text => text
  | .json => text ++ List.replicate (n + 1) 125

/-- A record: time, level, place of the call, message, attributes. -/
def record (p : Plain) (time : Int) (level : Level) (caller : Option Bytes) (msg : Bytes)
    (as : List Attr) : Bytes :=
  let start : Bytes := match p.format with
    | .json => "\x7b"
    | .text => []
  let place := match caller with
    | some c => [Attr.text "source" c]
    | none => []
  let own := [Attr.mk "time" (.time time), .mk "level" (.level level)] ++ place ++ [.text "msg" msg]
  let l := (Line.attrs p.format p.layout ⟨start, [], [], 0⟩ own).2
  p.tail l as ++ "\n"

end Plain

end DistanceField.Log
