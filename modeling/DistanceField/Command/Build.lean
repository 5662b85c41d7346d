import DistanceField.Command.Context
import DistanceField.Command.Point
import DistanceField.Command.Shared
import DistanceField.Command.Table
import DistanceField.Editor.Files
import DistanceField.Probe.Program
import DistanceField.Solid.Printer
import DistanceField.Source.Formatter

/-! The commands that run to their end. -/
namespace DistanceField.Command

variable {m : Type → Type} [Host m]

def build (c : Context) (source output : Bytes) : ExceptT Fault m Unit := do
  let r ← c.compileSource source
  c.writeOutput output (r.code ++ "\n")

def printAs (format text : Bytes) : ExceptT Fault m Unit := do
  unless ← Host.print text do
    throw (formatFault format (.plain Sink.full))

/-- Writes a source in its canonical form, to its file when `write`. -/
def formatSource (c : Context) (source : Bytes) (indent : Int) (write : Bool) :
    ExceptT Fault m Unit := do
  let (old, d) ← c.parseSource source
  let new := d.format indent
  if !write || source == Bytes.ofString "-" then c.writeOutput "-" new
  else if new == old then c.log (.debug "already formatted" [.text "file" source])
  else c.writeOutput source new

def geometryOf (c : Context) (source : Bytes) : ExceptT Fault m (Geometry Float) := do
  let (_, d) ← c.parseSource source
  match d.geometry with
  | .ok g => return g
  | .error e => throw e.fault

def formatJson (c : Context) (source : Bytes) (indent : Int) : ExceptT Fault m Unit := do
  match (← geometryOf c source).formatJson indent with
  | .ok t => printAs "json" t
  | .error e => throw (formatFault "json" (.plain e.message))

def formatYaml (c : Context) (source : Bytes) (indent : Int) : ExceptT Fault m Unit := do
  printAs "yaml" ((← geometryOf c source).formatYaml indent)

def formatTree (c : Context) (source : Bytes) : ExceptT Fault m Unit := do
  let (_, d) ← c.parseSource source
  match d.dump with
  | .ok t => printAs "ast" t
  | .error e => throw e.fault

/-- A number with so many places; a negative number of places stands for as many as it takes. -/
def shownNumber (precision : Int) (v : Float) : Bytes :=
  if precision < 0 then Decimal.fixed v else Decimal.places precision.toNat v

def probeRow (p : Probe.Program) (functions : List Bytes) (precision : Int) (at_ : Point) :
    Except Fault (List Bytes) := do
  let values ← functions.mapM fun f =>
    match p.evaluate f at_.x at_.y at_.z with
    | .ok v => .ok v
    | .error e => .error (((Fault.ofCommand Fault.probing).withAttrs [.text "function" f]).wrap
        (.plain e.message))
  .ok (([at_.x, at_.y, at_.z] ++ values).map (shownNumber precision))

/-- Evaluates functions of the compiled code at points. A table that does not fit is cut. -/
def probe (c : Context) (source : Bytes) (points functions : List Bytes) (format : Bytes)
    (precision : Int) : ExceptT Fault m Unit := do
  let at_ ← ExceptT.mk (pure (points.mapM Point.read))
  let r ← c.compileSource source
  match Probe.Program.compile r.code with
  | .error e => throw ((Fault.ofCommand Fault.probing).wrap (.plain e.message))
  | .ok p =>
    let rows ← ExceptT.mk (pure (at_.mapM (probeRow p functions precision)))
    let t : Table := ⟨"x" :: "y" :: "z" :: functions, rows⟩
    let text := if format == Bytes.ofString "csv" then t.csv
      else if format == Bytes.ofString "markdown" then t.markdown
      else t.boxed
    let _ ← Host.print text

def initialise (c : Context) (shared : Shared) (force : Bool) : ExceptT Fault m Unit := do
  let path := c.places.configFile
  let failed := (Fault.ofCommand Fault.configuring).withAttrs [.text "file" path]
  let there ← Host.isDirectory path
  if there.toBool && !force then
    throw ((failed.withAttrs [.bool "exists" true]).wrap (Fault.ofCommand Fault.fileExists))
  match ← Host.write path shared.file with
  | .error e => throw (failed.wrap (.plain e.message))
  | .ok _ => c.log (.debug "initialized configuration file" [.text "path" path])

/-- Lines that do not fit fail as they stand. -/
def printLine (line : Bytes) : ExceptT Fault m Unit := do
  unless ← Host.print (line ++ "\n") do
    throw (.plain Sink.full)

def version (c : Context) (verbose : Bool) : ExceptT Fault m Unit := do
  printLine (programName ++ " " ++ programVersion)
  if verbose then
    printLine c.system
    printLine "ardnew <andrew@ardnew.com>"

/-- What the editor starts from. Its log has to be there first. -/
def openEditor (c : Context) (source : Bytes) : ExceptT Fault m Bytes := do
  let path := c.places.editLog
  match ← Host.append path [] with
  | .error e => throw (writeFault path (.plain e.message))
  | .ok _ => ExceptT.mk (return Editor.load source (← Host.read source))

end DistanceField.Command
