import DistanceField.Log.Plain
import DistanceField.Log.Pretty

/-! Loggers. Logging is a function from a record to the text to be written. -/
namespace DistanceField.Log

inductive Handler where
  | plain (p : Plain)
  | pretty (p : Pretty)

namespace Handler

def ofConfig (stamp : Bytes → Bytes) (c : Config) : Handler :=
  let time := if c.layout.isEmpty then [] else stamp c.layout
  if c.pretty then .pretty { format := c.format, layout := time }
  else .plain { format := c.format, layout := time }

def withGroup (h : Handler) (name : Bytes) : Handler :=
  match h with
  | plain p => plain (p.withGroup name)
  | pretty p => pretty (p.withGroup name)

def withAttrs (h : Handler) (as : List Attr) : Handler :=
  match h with
  | plain p => plain (p.withAttrs as)
  | pretty p => pretty (p.withAttrs as)

def record (h : Handler) (time : Int) (level : Level) (caller : Option Bytes) (msg : Bytes)
    (as : List Attr) : Bytes :=
  match h with
  | plain p => p.record time level caller msg as
  | pretty p => p.record level caller msg as

end Handler

/-- Without a handler it was never made; `discards` drops all text, and `stamp` writes the time
after a layout. -/
structure Logger where
  config : Config
  handler : Option Handler
  discards : Bool
  stamp : Bytes → Bytes := id

namespace Logger

def zero : Logger := ⟨.blank, none, true, id⟩

def make (settings : List Setting) (stamp : Bytes → Bytes := id) : Logger :=
  let c := Config.default.adjust settings
  ⟨c, some (.ofConfig stamp c), false, stamp⟩

/-- Further settings; what was attached is lost. One that was never made starts anew and drops
all text. -/
def wrap (l : Logger) (settings : List Setting) : Logger :=
  match l.handler with
  | none => { make settings with discards := true }
  | some _ =>
    let c := l.config.adjust settings
    ⟨c, some (.ofConfig l.stamp c), l.discards, l.stamp⟩

def attach (l : Logger) (as : List Attr) : Logger :=
  if as.isEmpty then l else { l with handler := l.handler.map (·.withAttrs as) }

def group (l : Logger) (name : Bytes) : Logger :=
  if name.isEmpty then l else { l with handler := l.handler.map (·.withGroup name) }

def record (l : Logger) (level : Level) (caller msg : Bytes) (as : List Attr) : Bytes :=
  match l.handler with
  | none => []
  | some h =>
    if l.discards || level < l.config.level then []
    else h.record 0 level (if l.config.caller then some caller else none) msg as

end Logger

end DistanceField.Log
