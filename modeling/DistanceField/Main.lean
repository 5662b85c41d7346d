import DistanceField.Command.Run
import DistanceField.Serve.Wire
import DistanceField.Text.Layout
import Std.Async.Signal
import Std.Async.TCP

/-! The command line of the compiler. -/
namespace DistanceField.Main

open Command (Host Context Service Job)

def textOf (b : Bytes) : String := String.ofList (Utf8.chars b)

def bytesOf (s : String) : Bytes := s.toUTF8.toList

def packed (b : Bytes) : ByteArray := ⟨b.toArray⟩

def troubleOf : IO.Error → Disk.Trouble
  | .noFileOrDirectory .. => .missing
  | .alreadyExists .. => .exists
  | .inappropriateType .. => .notDirectory
  | .resourceExhausted .. => .exists
  | _ => .missing

def look (path : Bytes) : IO (Except Disk.Trouble Bool) := do
  let full := (← IO.currentDir) / textOf path
  if path.isEmpty then return .error .missing
  else if ← full.isDir then return .ok true
  else if ← full.pathExists then return .ok false
  else return .error .missing

def attempt {α : Type} (action path : Bytes) (act : IO α) : IO (Except Disk.Failure α) := do
  try
    return .ok (← act)
  catch e =>
    let why := if (← look path).toOption == some true then .isDirectory else troubleOf e
    return .error ⟨action, path, why⟩

partial def readAll (h : IO.FS.Stream) (got : ByteArray) : IO ByteArray := do
  let more ← h.read 65536
  if more.isEmpty then return got else readAll h (got ++ more)

/-- Writes a draft beside a file and moves it there. -/
def replaceFile (path content : Bytes) : IO (Except Disk.Failure Unit) := do
  let temp := Disk.draft path (Bytes.ofNat (← IO.rand 100000 999999999))
  match ← attempt "open" temp (IO.FS.writeBinFile (textOf temp) (packed content)) with
  | .error e => return .error e
  | .ok _ =>
    match ← look path with
    | .ok true =>
      IO.FS.removeFile (textOf temp)
      return .error ⟨"rename", temp ++ " " ++ path, .exists⟩
    | _ => attempt "rename" (temp ++ " " ++ path) (IO.FS.rename (textOf temp) (textOf path))

instance : Host IO where
  read path := do
    if (← look path).toOption == some true then return .error ⟨"read", path, .isDirectory⟩
    attempt "open" path (return (← IO.FS.readBinFile (textOf path)).toList)
  isDirectory := look
  write path content := attempt "open" path (IO.FS.writeBinFile (textOf path) (packed content))
  append path content := attempt "open" path do
    (← IO.FS.Handle.mk (textOf path) .append).write (packed content)
  replace := replaceFile
  makeAll path := do
    match ← attempt "mkdir" path (IO.FS.createDirAll (textOf path)) with
    | .ok _ => return .ok ()
    | .error e => return .error { e with trouble := .notDirectory }
  input := do return (← readAll (← IO.getStdin) .empty).toList
  print b := do
    let out ← IO.getStdout
    try
      out.write (packed b)
      out.flush
      return true
    catch _ => return false
  report b := do (← IO.getStderr).write (packed b)
  clock := return (← IO.monoNanosNow)

def newId : IO Bytes := do
  let group := fun (n : Nat) => do
    let mut out : Bytes := []
    for _ in List.range n do
      out := Bytes.hexDigit (← IO.rand 0 15) :: out
    return out
  return Bytes.join "-" [← group 8, ← group 4, ← group 4, ← group 4, ← group 12]

def variableOf (name : String) : IO Bytes := return bytesOf ((← IO.getEnv name).getD "")

def stampNow : IO (Bytes → Bytes) := do
  let t ← Std.Time.Timestamp.now
  return Layout.write (.ofNanoseconds t.toNanosecondsSinceUnixEpoch.val)

def surroundings : IO Command.Surroundings := do
  let here := bytesOf (← IO.currentDir).toString
  let env : Command.Environment :=
    ⟨← variableOf "HOME", ← variableOf "XDG_CONFIG_HOME", ← variableOf "XDG_CACHE_HOME", here⟩
  let places := Command.Places.of env (bytesOf (← IO.appPath).toString)
  return ⟨places, here, ← stampNow, "main", "lean4", ← newId⟩

def signature (path : Bytes) : IO (Option (IO.FS.SystemTime × UInt64)) := do
  try
    let m ← ((← IO.currentDir) / textOf path).metadata
    return some (m.modified, m.byteSize)
  catch _ => return none

partial def settled (path : Bytes) (delay : UInt32) : IO (Option (IO.FS.SystemTime × UInt64)) := do
  let before ← signature path
  IO.sleep delay
  if (← signature path) == before then return before else settled path delay

partial def receive (client : Std.Async.TCP.Socket.Client) (got : Bytes) :
    IO (Option Serve.Request) := do
  match ← (client.recv? 65536).block with
  | none => return none
  | some more =>
    let got := got ++ more.toList
    match Serve.Request.read? got with
    | some r => return some r
    | none => receive client got

def answerNext (c : Context) (s : Service) (listener : Option Std.Async.TCP.Socket.Server) :
    IO Service := do
  let some listener := listener | return s
  let some client ← listener.tryAccept | return s
  let some request ← receive client [] | return s
  let (response, s) ← s.answer c request
  (client.send (packed (response.write request.method))).block
  (client.shutdown).block
  return s

partial def serve (c : Context) (s : Service) (listener : Option Std.Async.TCP.Socket.Server)
    (isStopped : IO Bool) (seen : Option (IO.FS.SystemTime × UInt64)) : IO Unit := do
  let c := c.later (← stampNow)
  if ← isStopped then
    c.log (.info "file watcher stopped" [])
  else
    let mut s ← answerNext c s listener
    let mut seen := seen
    if (← signature s.path) != seen then
      seen ← settled s.path (s.watcher.debounce / 1000000).toNat.toUInt32
      if seen.isSome then
        s ← s.feed c [⟨s.path, [.write]⟩]
    IO.sleep 20
    serve c s listener isStopped seen

def addressOf (a : Serve.Address) : Option Std.Net.SocketAddress :=
  let ip : Option Std.Net.IPv4Addr := match textOf a.host with
    | "" => some (.ofParts 0 0 0 0)
    | "localhost" => some (.ofParts 127 0 0 1)
    | host => Std.Net.IPv4Addr.ofString host
  ip.map fun ip => .v4 ⟨ip, a.port.toUInt16⟩

def listen (a : Serve.Address) : IO Std.Async.TCP.Socket.Server := do
  let some address := addressOf a
    | throw (.userError ("lookup " ++ textOf a.host ++ ": no such host"))
  let listener ← Std.Async.TCP.Socket.Server.mk
  listener.bind address
  listener.listen 128
  return listener

def start (c : Context) (s : Service) (listener : Option Std.Async.TCP.Socket.Server) : IO UInt32 := do
  let waiter ← Std.Async.Signal.Waiter.mk .sigint false
  let interrupted ← waiter.wait
  match ← (s.start c).run with
  | .error e =>
    c.log (.error "run failed" [.text "error" e.message])
    return 1
  | .ok s =>
    let seen ← signature s.path
    let s ← s.feed c []
    serve c s listener (IO.hasFinished interrupted) seen
    return 0

def run (args : List String) : IO UInt32 := do
  let (c, r) ← Command.runLogged (← surroundings) (args.map bytesOf)
  let failed := fun (why : Bytes) => do
    c.log (.error "run failed" [.text "error" why])
    return 1
  match r with
  | .error _ => return 1
  | .ok .done => return 0
  | .ok (.edit _ _ _) => failed "could not open a new TTY"
  | .ok (.watch s) => start c s none
  | .ok (.serve s address _) =>
    try
      start c s (some (← listen address))
    catch e => failed (bytesOf e.toString)

end DistanceField.Main

def main (args : List String) : IO UInt32 := DistanceField.Main.run args
