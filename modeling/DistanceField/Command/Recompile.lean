import DistanceField.Command.Context
import DistanceField.Serve.Server
import DistanceField.Watch.Watcher

/-! Compiling a file again whenever it changes. -/
namespace DistanceField

inductive Recompiled where
  | failed (why : Fault)
  | unchanged (u : Update)
  | changed (u : Update) (r : Result)

/-- Submits what was read at a path. A source that cannot be read is not submitted. -/
def Session.recompile (s : Session) (path : Bytes) (read : Except Fault Bytes) :
    Option Update × Recompiled × Session :=
  match read with
  | .error e => (none, .failed e, s)
  | .ok source =>
    let (u, s) := s.submit false source
    let outcome := match u.error, u.result with
      | some e, _ => .failed (Command.compileFault path source e)
      | none, some r => if u.stale || !u.changed then .unchanged u else .changed u r
      | none, none => .unchanged u
    (some u, outcome, s)

namespace Command

variable {m : Type → Type} [Host m]

def isNew (s : Session) (source : Bytes) : Bool :=
  match s.cache with
  | none => true
  | some c => (c.get? s.strict source).isNone

/-- Reads a source and submits it; `onChange` is told of new code. The session goes on in any case. -/
def recompile (c : Context) (session : Session) (path : Bytes)
    (onChange : Update → Result → ExceptT Fault m Unit) :
    m (Except Fault Unit × Option Update × Session) := do
  let start ← Host.clock
  let read ← (c.readSource path).run
  if let .ok source := read then
    if isNew session source then
      for r in parseRecords session.strict source do
        c.log r
  let (u, outcome, session) := session.recompile path read
  let elapsed := (← Host.clock) - start
  if let some u := u then
    c.log (u.record c.id elapsed)
  match outcome with
  | .failed e => return (.error e, u, session)
  | .unchanged v =>
    c.log (.debug "output unchanged" [.int "seq" v.seq, .bool "stale" v.stale])
    return (.ok (), u, session)
  | .changed v r =>
    c.log (.info "recompiled" [.text "source" path, .int "seq" v.seq,
      .int "code_bytes" r.code.length, .duration "elapsed" elapsed])
    return (← (onChange v r).run, u, session)

/-- A file under watch. New code goes to the output, if there is one, and the server answers from the
session. -/
structure Service where
  watcher : Watch.Watcher
  server : Serve.Server
  output : Option Bytes := none

namespace Service

def path (s : Service) : Bytes := s.watcher.path

def make (c : Context) (w : Watch.Watcher) (profiler : Bool) (output : Option Bytes) : Service :=
  let session : Session := { strict := c.strict, cache := some (Cache.ofLimit 0) }
  { watcher := w, output := output
    server := { session := session, profiler := profiler, id := c.id } }

def start (c : Context) (s : Service) : ExceptT Fault m Service := do
  match s.watcher.start (← Host.isDirectory s.watcher.folder) with
  | .error e => throw (.plain e.message)
  | .ok w =>
    c.log (.info "file watcher started"
      [.text "path" w.path, .int "debounce_ms" (w.debounce / 1000000)])
    return { s with watcher := w }

def publish (c : Context) (s : Service) (r : Result) : ExceptT Fault m Unit :=
  match s.output with
  | some output => c.writeOutput output (r.code ++ "\n")
  | none => pure ()

def updateLayout : Bytes := Log.Config.layoutOf "rfc3339nano"

/-- What is done when the file has changed. A failure is logged, and watching goes on. -/
def change (c : Context) (s : Service) : m Service := do
  let (r, u, session) ← recompile c s.server.session s.path fun _ r => s.publish c r
  if let .error e := r then
    c.log (.warn "change handler failed" [.text "path" s.path, .fault "error" e])
  return match u with
    | none => { s with server := { s.server with session := session } }
    | some u =>
      let server := { s.server with session := session, updated := c.stamp updateLayout }
      { s with server := server.observe u }

def feed (c : Context) (s : Service) (es : List Watch.Event) : m Service := do
  let (w, calls) := (s.watcher.arrive es).settle
  let mut s := { s with watcher := w }
  for _ in List.range calls do
    s ← s.change c
  return s

def answer (c : Context) (s : Service) (r : Serve.Request) : m (Serve.Response × Service) := do
  let start ← Host.clock
  let (response, server) := s.server.handle r
  c.log (.debug "request" [.text "method" r.method, .text "route" (s.server.respond r).2,
    .int "code" response.status, .int "bytes" response.body.length,
    .duration "elapsed" ((← Host.clock) - start)])
  return (response, { s with server := server })

end Service

end Command

end DistanceField
