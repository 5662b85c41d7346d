import DistanceField.Log.Level

/-! What a logger can be told. -/
namespace DistanceField.Log

structure Config where
  layout : Bytes
  level : Level
  format : Format
  caller : Bool
  pretty : Bool
deriving DecidableEq, Repr

inductive Setting where
  | level (l : Level)
  | format (f : Format)
  | layout (b : Bytes)
  | caller (on : Bool)
  | pretty (on : Bool)
deriving DecidableEq, Repr

namespace Config

/-- The layouts that have a name; no layout stands for no time. -/
def layouts : List (String × String) :=
  [("", ""), ("none", ""), ("rfc3339", "2006-01-02T15:04:05Z07:00"),
    ("rfc3339nano", "2006-01-02T15:04:05.999999999Z07:00"),
    ("datetime", "2006-01-02 15:04:05"), ("timeonly", "15:04:05"), ("kitchen", "3:04PM"),
    ("stamp", "Jan _2 15:04:05"), ("stampmilli", "Jan _2 15:04:05.000"),
    ("stampmicro", "Jan _2 15:04:05.000000")]

/-- A named layout in any case, else the text itself. -/
def layoutOf (b : Bytes) : Bytes :=
  let name := Letter.lowered (Letter.trim b)
  match layouts.find? fun (n, _) => n.toList == name with
  | some (_, l) => l
  | none => b

def default : Config := ⟨layoutOf "rfc3339", Level.info, .json, false, true⟩

def blank : Config := ⟨[], Level.info, .text, false, false⟩

def apply (c : Config) : Setting → Config
  | .level l => { c with level := l }
  | .format f => { c with format := f }
  | .layout b => { c with layout := layoutOf b }
  | .caller on => { c with caller := on }
  | .pretty on => { c with pretty := on }

def adjust (c : Config) (opts : List Setting) : Config := opts.foldl apply c

end Config

end DistanceField.Log
