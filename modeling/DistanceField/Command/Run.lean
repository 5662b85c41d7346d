import DistanceField.Command.Build
import DistanceField.Command.Recompile
import DistanceField.Config.Json
import DistanceField.Config.Document
import DistanceField.Log.Flags
import DistanceField.Serve.Address

/-! Running a command line. Commands that go on until they are interrupted are left as a job to the
caller. -/
namespace DistanceField.Command

inductive Failure where
  | usage (why : Usage)
  | fault (why : Fault)

def Failure.message : Failure → Bytes
  | usage u => u.message
  | fault f => f.message

inductive Job where
  | done
  | watch (s : Service)
  | serve (s : Service) (address : Serve.Address) (shutdown : Int)
  | edit (path source : Bytes) (interval : Int)

variable {m : Type → Type} [Host m]

def checkFile (here path : Bytes) : m (Except Bytes Bytes) := do
  let full := if Path.isAbsolute path then path else Watch.absolute here path
  return match ← Host.isDirectory full with
    | .ok false => .ok full
    | .ok true => .error (Quoted.quote full ++ " exists but is a directory")
    | .error t => .error ("stat " ++ full ++ ": " ++ t.message)

def readPlainConfig (path : Bytes) : ExceptT Fault m Config.Fields := do
  match ← Host.read path with
  | .error e =>
    if e.trouble == .missing then return []
    else throw (.plain (path ++ ": " ++ e.message))
  | .ok b =>
    match Config.Json.read b with
    | .ok fields => return fields
    | .error why => throw (.plain (path ++ ": " ++ why))

/-- The fields of the configuration file. One that cannot be read is reported and passed over. -/
def readConfig (c : Context) (path : Bytes) : m Config.Fields := do
  let ignored := fun (why : Bytes) => do
    c.log (.warn "ignoring malformed config file" [.text "error" why])
    return []
  match ← Host.read path with
  | .error e => if e.trouble == .missing then return [] else ignored e.message
  | .ok b =>
    match Config.readFields b with
    | .ok fields => return fields
    | .error why => ignored why

def filesOf (plain fields : Config.Fields) : Line.Files := fun command flag =>
  (Config.Json.resolve plain flag).toList ++ (Config.resolve fields command flag).toList

def readLine (c : Context) (args : List Bytes) : ExceptT Failure m Line := do
  let plain ← (readPlainConfig c.places.plainConfigFile).adapt Failure.fault
  let fields ← readConfig c c.places.configFile
  let mut found : List (Bytes × Except Bytes Bytes) := []
  for a in args do
    found := (a, ← checkFile c.here a) :: found
  let check := fun path => (found.lookup path).getD (.error [])
  match Line.parse check (filesOf plain fields) args with
  | .ok l => return l
  | .error u => throw (.usage u)

def initialised (s : Shared) : Log.Record :=
  .debug "logger initialized" [.text "level" (Log.Level.name s.level), .text "format" s.format.name,
    .text "time" s.layout, .bool "caller" s.caller, .bool "pretty" s.pretty]

def stdio : Bytes := "-"

def second : Int := 1000000000

def execute (c : Context) (l : Line) (shared : Shared) : ExceptT Fault m Job := do
  let n := l.command
  let source := l.source.getD stdio
  let indent := l.number n "indent" 2
  let watcher := Watch.Watcher.make (Watch.absolute c.here source)
    (l.duration n "debounce" Watch.defaultDebounce) true
  match n with
  | .build => build c source (l.text n "output" stdio)
  | .native => formatSource c source indent (l.switch n "write" false)
  | .json => formatJson c source indent
  | .yaml => formatYaml c source indent
  | .ast => formatTree c source
  | .probe =>
    probe c source (l.texts n "at" []) (l.texts n "fn" ["de"]) (l.text n "format" "table")
      (l.number n "precision" 4)
  | .init => initialise c shared (l.switch n "force" false)
  | .version => version c (l.switch n "verbose" false)
  | .watch => return .watch (Service.make c watcher false (some (l.text n "output" stdio)))
  | .serve =>
    let address := l.text n "addr" "localhost:8080"
    c.log (.info "serving"
      [.text "addr" address, .text "source" watcher.path, .text "session" c.id])
    match Serve.Address.read address with
    | .error e => throw (.plain (Serve.Address.listenFailure address e))
    | .ok a =>
      return .serve (Service.make c watcher (l.switch n "profiler" false) none) a
        (l.duration n "shutdown" (5 * second))
  | .edit => return .edit source (← openEditor c source) (l.duration n "interval" second)
  | .root | .fmt => pure ()
  return .done

/-- Runs a command line; the context is what the run ended with. Flags of the logger count before the
line is read. -/
def run (s : Surroundings) (args : List Bytes) : m (Context × Except Failure Job) := do
  let c : Context := { toSurroundings := s, logger := Log.Logger.make [] s.stamp }
  for path in [s.places.config, s.places.cache] do
    if let .error e ← Host.makeAll path then
      return (c, .error (.fault (.plain e.message)))
  let c := { c with logger := c.logger.wrap (Log.scanFlags args) }
  match ← (readLine c args).run with
  | .error f => return (c, .error f)
  | .ok l =>
    let shared := Shared.ofLine l
    let c := { c with logger := c.logger.wrap shared.settings, strict := shared.strict }
    c.log (initialised shared)
    return (c, (← (execute c l shared).run).mapError .fault)

def runLogged (s : Surroundings) (args : List Bytes) : m (Context × Except Failure Job) := do
  let (c, r) ← run s args
  if let .error f := r then
    c.log (.error "run failed" [.text "error" f.message])
  return (c, r)

end DistanceField.Command
