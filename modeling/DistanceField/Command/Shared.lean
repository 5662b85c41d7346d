import DistanceField.Command.Line
import DistanceField.Log.Config

/-! The flags that all commands share, and the configuration file that keeps them. -/
namespace DistanceField.Command

structure Shared where
  level : Log.Level := Log.Level.info
  format : Log.Format := .json
  layout : Bytes := "RFC3339"
  caller : Bool := false
  pretty : Bool := true
  strict : Bool := false
deriving DecidableEq, Repr

namespace Shared

def ofLine (l : Line) : Shared :=
  let d : Shared := {}
  { level := l.level .root "log-level" d.level
    format := l.format .root "log-format" d.format
    layout := l.text .root "log-time-layout" d.layout
    caller := l.switch .root "log-caller" d.caller
    pretty := l.switch .root "log-pretty" d.pretty
    strict := l.switch .root "strict" d.strict }

def settings (s : Shared) : List Log.Setting :=
  [.level s.level, .format s.format, .layout s.layout, .caller s.caller, .pretty s.pretty]

def values (s : Shared) : Config.Fields :=
  [("log-level", .text (Log.Level.name s.level)), ("log-format", .text s.format.name),
    ("log-time-layout", .text s.layout), ("log-caller", .bool s.caller),
    ("log-pretty", .bool s.pretty), ("strict", .bool s.strict)]

/-- The fields of the configuration file; values that are unset are left out. -/
def fields (s : Shared) : Config.Fields :=
  s.values.filterMap fun (k, v) => v.entry?.map fun e => (k, e)

def scalar : Config.Value → Bytes
  | .text b => Yaml.string false 2 b
  | .float v => Yaml.float v
  | v => v.display

def file (s : Shared) : Bytes := s.fields.flatMap fun (k, v) => k ++ ": " ++ scalar v ++ "\n"

def ofFields (fs : Config.Fields) : Except Usage Shared := do
  let l ← Line.resolve (fun command flag => (Config.resolve fs command flag).toList) {}
  .ok (ofLine l)

end Shared

end DistanceField.Command
