import DistanceField.Fault
import DistanceField.Log.Level
import DistanceField.Number.Decimal
import DistanceField.Text.Calendar
import DistanceField.Text.Duration

/-! Logged values: their plain text, and failures opened into groups. -/
namespace DistanceField

mutual

def Value.display : Value → Bytes
  | .text b => b
  | .integer n => Bytes.ofInt n
  | .float v => Decimal.text Decimal.general v
  | .bool b => (if b then "true" else "false" : String)
  | .duration ns => Duration.text ns
  | .time s => (Calendar.ofSeconds s).spelled
  | .level l => Log.Level.scaled l
  | .null => "<nil>"
  | .group attrs => "[" ++ Attr.displayAll attrs ++ "]"
  | .fault f => f.message

def Attr.displayAll : List Attr → Bytes
  | [] => []
  | [.mk k v] => k ++ "=" ++ v.display
  | .mk k v :: rest => k ++ "=" ++ v.display ++ " " ++ Attr.displayAll rest

end

def Fault.display (f : Fault) : Bytes := (Value.group f.details).display

mutual

/-- Failures with details become groups, at every depth. -/
def Value.opened : Value → Value
  | .group attrs => .group (Attr.openedAll attrs)
  | .fault f => f.opened
  | v => v

def Attr.openedAll : List Attr → List Attr
  | [] => []
  | .mk k v :: rest => .mk k v.opened :: Attr.openedAll rest

def Attr.openedShown : List Attr → List Attr
  | [] => []
  | .mk k v :: rest =>
    if (Attr.mk k v).isEmptyGroup then Attr.openedShown rest
    else .mk k v.opened :: Attr.openedShown rest

def Fault.opened : Fault → Value
  | .source m c a p =>
    let cause := match c with
      | some c => [Attr.text "cause" c.message]
      | none => []
    .group (Fault.messageAttr m ++ cause ++ Fault.placeAttr p ++ Attr.openedShown a)
  | .command m none a => .group (Fault.messageAttr m ++ Attr.openedShown a)
  | .command m (some c) a =>
    .group (Fault.messageAttr m ++ [.mk "cause" c.opened] ++ Attr.openedShown a)
  | f => .fault f

end

def Attr.opened : Attr → Attr
  | .mk k v => .mk k v.opened

end DistanceField
