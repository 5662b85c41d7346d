import DistanceField.Command.Host
import DistanceField.Command.Place
import DistanceField.Command.Report
import DistanceField.Compile.Report

/-! What commands have in common: they log, read a source, compile it and write output. -/
namespace DistanceField.Command

open Log (Record)

/-- What surrounds a program: its directories, the working directory, how the time is written after a
layout, where records come from, the system it runs on, and a name for its session. -/
structure Surroundings where
  places : Places
  here : Bytes
  stamp : Bytes → Bytes
  caller : Bytes
  system : Bytes
  id : Bytes

structure Context extends Surroundings where
  logger : Log.Logger
  strict : Bool := false

namespace Context

variable {m : Type → Type} [Host m]

def later (c : Context) (stamp : Bytes → Bytes) : Context :=
  { c with stamp := stamp, logger := { c.logger with stamp := stamp }.wrap [] }

def log (c : Context) (r : Record) : m Unit := Host.report (c.logger.write c.caller r)

/-- Why a source cannot be read. One that opens but is no file fails in its reader. -/
def readFault (path : Bytes) (e : Disk.Failure) : Fault :=
  let attr := if e.action == Bytes.ofString "read" then Attr.text "source" "reader"
    else Attr.text "file" path
  (unreadable (.plain e.message)).withAttrs [attr]

def readSource (c : Context) (path : Bytes) : ExceptT Fault m Bytes := do
  let source ← if isStream path then Host.input
    else match ← Host.read path with
      | .ok b => pure b
      | .error e => throw (readFault path e)
  c.log (.trace "read source" [.int "source_bytes" source.length, .bool "read_ahead" true])
  return source

def writeOutput (c : Context) (path data : Bytes) : ExceptT Fault m Unit := do
  if isStream path then
    unless ← Host.print data do
      throw (writeFault "<stdout>" (.plain Sink.full))
  else match ← Host.replace path data with
    | .ok _ => c.log (.trace "wrote output" [.text "file" path, .int "bytes" data.length])
    | .error e => throw (writeFault path (.plain e.message))

def compile (c : Context) (source : Bytes) : m (Except Fault Result) := do
  let start ← Host.clock
  for r in parseRecords c.strict source do
    c.log r
  let result := DistanceField.compile c.strict source
  c.log (compileRecord source ((← Host.clock) - start) result)
  return result

def parseSource (c : Context) (path : Bytes) : ExceptT Fault m (Bytes × Document) := do
  let source ← c.readSource path
  for r in parseRecords c.strict source do
    c.log r
  match (parse c.strict source).result with
  | .ok d => return (source, d)
  | .error e => throw (compileFault path source e.fault)

def compileSource (c : Context) (path : Bytes) : ExceptT Fault m Result := do
  let source ← c.readSource path
  match ← c.compile source with
  | .ok r => return r
  | .error e => throw (compileFault path source e)

end Context

end DistanceField.Command
