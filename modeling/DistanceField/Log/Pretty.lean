import DistanceField.Log.Config
import DistanceField.Log.Value

/-! Records in colour for a terminal. Groups are dotted names, values stand as they are. -/
namespace DistanceField.Log

inductive Color where
  | gray
  | red
  | green
  | yellow
  | blue
  | magenta
  | cyan

def Color.code : Color → Nat
  | gray => 90
  | red => 31
  | green => 32
  | yellow => 33
  | blue => 34
  | magenta => 35
  | cyan => 36

def Color.paint (c : Color) (b : Bytes) : Bytes :=
  "\x1b[" ++ Bytes.ofNat c.code ++ "m" ++ b ++ "\x1b[0m"

structure Pretty where
  format : Format
  layout : Bytes
  lead : Bytes := []
  attached : List Attr := []

namespace Pretty

def levelColor (l : Level) : Color :=
  if Level.error ≤ l then .red
  else if Level.warn ≤ l then .yellow
  else if Level.info ≤ l then .green
  else .blue

def value : Value → Bytes
  | .integer n => Color.yellow.paint (Bytes.ofInt n)
  | .float v => Color.yellow.paint (Decimal.text Decimal.general v)
  | .bool true => Color.green.paint "true"
  | .bool false => Color.red.paint "false"
  | .duration ns => Color.magenta.paint (Duration.rounded ns)
  | .time s => Color.blue.paint (Calendar.ofSeconds s).spelled
  | .level l => (levelColor l).paint (Level.name l)
  | .null => Color.gray.paint "null"
  | v => Color.cyan.paint v.display

mutual

def flatten (lead : Bytes) : Attr → List (Bytes × Value)
  | .mk k (.group as) => flattenAll (if k.isEmpty then lead else lead ++ k ++ ".") as
  | .mk k .null => if k.isEmpty then [] else [(lead ++ k, .null)]
  | .mk k v => [(lead ++ k, v)]

def flattenAll (lead : Bytes) : List Attr → List (Bytes × Value)
  | [] => []
  | a :: rest => flatten lead a ++ flattenAll lead rest

end

def pair (mark : Bytes) : Bytes × Value → Bytes
  | (k, v) => Color.gray.paint k ++ mark ++ value v

def write (f : Format) (fields : List (Bytes × Value)) : Bytes :=
  match f with
  | .text => Bytes.join " " (fields.map (pair "=")) ++ "\n"
  | .json =>
    "\x7b\n" ++ Bytes.join ",\n" (fields.map fun x => "  " ++ pair ": " x) ++ "\n\x7d\n"

def withGroup (p : Pretty) (name : Bytes) : Pretty :=
  if name.isEmpty then p else { p with lead := p.lead ++ name ++ "." }

/-- Attributes keep the groups that were open when they were attached. -/
def qualify (lead : Bytes) (as : List Attr) : Attr :=
  .mk (if lead.getLast? == some 46 then lead.dropLast else lead) (.group as)

def withAttrs (p : Pretty) (as : List Attr) : Pretty :=
  if as.isEmpty then p else { p with attached := p.attached ++ [qualify p.lead as] }

def record (p : Pretty) (level : Level) (caller : Option Bytes) (msg : Bytes) (as : List Attr) :
    Bytes :=
  let time := if p.layout.isEmpty then [] else [Attr.text "time" p.layout]
  let place := match caller with
    | some c => [Attr.text "source" c]
    | none => []
  let own := time ++ [Attr.mk "level" (.level level)] ++ place ++ [.text "msg" msg]
  write p.format (flattenAll [] (own ++ Attr.openedAll p.attached) ++
    flattenAll p.lead (Attr.openedAll as))

end Pretty

end DistanceField.Log
