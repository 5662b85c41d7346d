import DistanceField.Serve.Etag
import DistanceField.Serve.Metrics
import DistanceField.Storage.Path
import DistanceField.Text.Json

/-! Answers to requests for the latest code, the state of the session and the metrics. -/
namespace DistanceField.Serve

structure Request where
  method : Bytes
  target : Bytes
  headers : List (Bytes × Bytes) := []

structure Response where
  status : Nat
  headers : List (Bytes × Bytes) := []
  body : Bytes := []
deriving DecidableEq, Repr

def Request.header (r : Request) (name : Bytes) : Bytes :=
  ((r.headers.find? fun h => Letter.same h.1 name).map (·.2)).getD []

def Request.path (r : Request) : Bytes := r.target.takeWhile (· != 63)

inductive Route where
  | code
  | status
  | metrics
  | debug
  | profiles
  | belowDebug
deriving DecidableEq, Repr

namespace Route

def name : Route → Bytes
  | .code => "/de.glsl"
  | .status => "/status"
  | .metrics => "/metrics"
  | .debug => "/debug"
  | .profiles => "/debug/pprof"
  | .belowDebug => "/debug/*"

def ofDebugPath? (path : Bytes) : Option Route :=
  if path == debug.name || path == debug.name ++ [47] then some debug
  else if path == profiles.name then some profiles
  else if (Bytes.after? (debug.name ++ [47]) path).isSome then some belowDebug
  else none

def ofPath? (profiler : Bool) (path : Bytes) : Option Route :=
  if path == code.name then some code
  else if path == status.name then some status
  else if path == metrics.name then some metrics
  else if profiler then ofDebugPath? path
  else none

end Route

def methods : List Bytes :=
  ["CONNECT", "DELETE", "GET", "HEAD", "OPTIONS", "PATCH", "POST", "PUT", "TRACE"]

def plainText : Bytes × Bytes := ("Content-Type", "text/plain; charset=utf-8")

def notFound : Response := ⟨404, [plainText], "404 page not found\n"⟩

def notAllowed : Response := ⟨405, [("Allow", "GET")], []⟩

def codeResponse (s : State) (method ifNoneMatch : Bytes) : Response :=
  match s.result with
  | none =>
    let why : Bytes := match s.error with
      | some e => e.message
      | none => "no code compiled yet"
    ⟨503, [plainText], why ++ "\n"⟩
  | some r =>
    let known : List (Bytes × Bytes) := [("Etag", r.etag), ("Cache-Control", "no-cache")]
    if Etag.isListed ifNoneMatch r.etag then ⟨304, known, []⟩
    else
      ⟨200, known ++ [plainText, ("Content-Length", Bytes.ofNat r.code.length)],
        if method == Bytes.ofString "HEAD" then [] else r.code⟩

/-- The state of a session in JSON; what is empty is left out. -/
def statusJson (id updated : Bytes) (s : State) : Json :=
  let text := fun (key value : Bytes) => if value.isEmpty then [] else [Json.field key (.string value)]
  let number := fun (key : Bytes) (n : Nat) => Json.field key (.number (Bytes.ofNat n))
  let error := (s.error.map Fault.message).getD []
  let place := match s.errorPosition? with
    | some (l, c) => [number "line" l, number "col" c]
    | none => []
  .object (text "updated" (if s.isUpdated then updated else []) ++
    [Json.field "id" (.string id)] ++ text "error" error ++
    text "etag" ((s.result.map Result.etag).getD []) ++ [number "seq" s.seq] ++ place ++
    [number "code_bytes" ((s.result.map fun r => r.code.length).getD 0),
      Json.field "ok" (.bool s.ok)])

def statusResponse (id updated : Bytes) (s : State) : Response :=
  ⟨200, [("Content-Type", "application/json")], (statusJson id updated s).compact ++ "\n"⟩

def metricsResponse (m : Metrics) : Response :=
  ⟨200, [("Content-Type", "text/plain; version=0.0.4; charset=utf-8; escaping=underscores")], m.text⟩

def escapeHtml (b : Bytes) : Bytes :=
  b.flatMap fun c =>
    if c == 38 then "&amp;"
    else if c == 60 then "&lt;"
    else if c == 62 then "&gt;"
    else if c == 34 then "&#34;"
    else if c == 39 then "&#39;"
    else [c]

def noCache : Bytes × Bytes :=
  ("Cache-Control", "no-cache, no-store, no-transform, must-revalidate, private, max-age=0")

def cleanTarget (url : Bytes) : Bytes :=
  let path := url.takeWhile (· != 63)
  let clean := Path.clean path
  let slash : Bytes := if path.getLast? == some 47 && clean.getLast? != some 47 then "/" else []
  clean ++ slash ++ url.dropWhile (· != 63)

/-- Sends a client elsewhere. Only who may read it gets a page that says so. -/
def moved (method url : Bytes) : Response :=
  let url := cleanTarget url
  let get := method == Bytes.ofString "GET"
  let place : List (Bytes × Bytes) := [("Location", url)]
  let page : List (Bytes × Bytes) :=
    if get || method == Bytes.ofString "HEAD" then [("Content-Type", "text/html; charset=utf-8")]
    else []
  ⟨301, noCache :: page ++ place,
    if get then "<a href=\"" ++ escapeHtml url ++ "\">Moved Permanently</a>.\n\n" else []⟩

/-- The debug route leads to the profiles, which are not built in. -/
def debugResponse (route : Route) (method target : Bytes) : Response :=
  match route with
  | .debug =>
    if method == Bytes.ofString "GET" then moved method (target ++ "/pprof/")
    else ⟨405, [noCache, ("Allow", "GET")], []⟩
  | .profiles => moved method (target ++ "/")
  | _ => { notFound with headers := noCache :: notFound.headers }

/-- A session with what is shown of it: `id` names it, and `updated` is the time of its last
accepted outcome. -/
structure Server where
  session : Session
  metrics : Metrics := {}
  profiler : Bool := false
  id : Bytes := []
  updated : Bytes := []

namespace Server

def respond (s : Server) (r : Request) : Response × Bytes :=
  if !methods.contains r.method then (⟨405, [], []⟩, "unmatched")
  else match Route.ofPath? s.profiler r.path with
    | none => (notFound, "unmatched")
    | some route =>
      let readable := r.method == Bytes.ofString "GET" || r.method == Bytes.ofString "HEAD"
      let own := fun (response : Response) =>
        if readable then (response, route.name) else (notAllowed, "unmatched")
      match route with
      | .code => own (codeResponse s.session.state r.method (r.header "If-None-Match"))
      | .status => own (statusResponse s.id s.updated s.session.state)
      | .metrics => own (metricsResponse s.metrics)
      | route => (debugResponse route r.method r.target, route.name)

def handle (s : Server) (r : Request) : Response × Server :=
  let (response, route) := s.respond r
  (response, { s with metrics := s.metrics.answered response.status route })

def observe (s : Server) (u : Update) : Server := { s with metrics := s.metrics.observe u }

end Server

end DistanceField.Serve
