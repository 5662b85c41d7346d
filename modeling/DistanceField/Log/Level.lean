import DistanceField.Text.Letter
import DistanceField.Text.Quoted
import DistanceField.Number.Integer

/-! Severities and encodings of log records. -/
namespace DistanceField.Log

/-- A severity; the named ones are four apart. -/
abbrev Level := Int

namespace Level

def trace : Level := -8
def debug : Level := -4
def info : Level := 0
def warn : Level := 4
def error : Level := 8

def all : List Level := [trace, debug, info, warn, error]

def name (l : Level) : Bytes :=
  if l == trace then "trace"
  else if l == debug then "debug"
  else if l == info then "info"
  else if l == warn then "warn"
  else if l == error then "error"
  else "Level(" ++ Bytes.ofInt l ++ ")"

def capitals (l : Level) : Bytes := l.name.map Bytes.upperByte

def scaled (l : Level) : Bytes :=
  let offset := fun (name : Bytes) (n : Int) =>
    if n == 0 then name else name ++ (if n < 0 then [] else [43]) ++ Bytes.ofInt n
  if l < info then offset "DEBUG" (l - debug)
  else if l < warn then offset "INFO" (l - info)
  else if l < error then offset "WARN" (l - warn)
  else offset "ERROR" (l - error)

def ofName? (b : Bytes) : Option Level :=
  let cs := Letter.uppered b
  if cs == "DEBUG".toList then some debug
  else if cs == "INFO".toList then some info
  else if cs == "WARN".toList then some warn
  else if cs == "ERROR".toList then some error
  else none

def isSign (b : UInt8) : Bool := b == 43 || b == 45

/-- A name in any case, or a name with a distance such as `debug+2`. -/
def read? (b : Bytes) : Option Level :=
  let t := Letter.trim b
  if Letter.same t "trace" then some trace
  else
    let name := t.takeWhile fun c => !isSign c
    match t.drop name.length with
    | [] => ofName? name
    | tail => do
      let n ← Integer.read? tail
      let l ← ofName? name
      pure (Integer.wrap (l + n))

def unknown (b : Bytes) : Bytes := "unknown log level " ++ Quoted.quote b

end Level

inductive Format where
  | text
  | json
deriving DecidableEq, Repr

namespace Format

def all : List Format := [json, text]

def name : Format → Bytes
  | text => "text"
  | json => "json"

def nameOf (code : Int) : Bytes :=
  if code == 0 then name text
  else if code == 1 then name json
  else "Format(" ++ Bytes.ofInt code ++ ")"

def read? (b : Bytes) : Option Format := all.find? fun f => Letter.same (Letter.trim b) f.name

def unknown (b : Bytes) : Bytes := "unknown log format " ++ Quoted.quote b

end Format

end DistanceField.Log
