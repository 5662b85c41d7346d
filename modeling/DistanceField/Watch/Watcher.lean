import DistanceField.Storage.Disk
import DistanceField.Text.Quoted
import DistanceField.Watch.Debounce
import DistanceField.Watch.Event

/-! Watching one file. Events wake a debouncer, the debouncer signals a change, and the loop calls the
handler. All of these may move in any order. -/
namespace DistanceField.Watch

/-- A loop under way: the events that it has not looked at, whether a change is signalled, and whether
the handler is at work. There is room for one signal. -/
structure Loop where
  path : Bytes
  events : List Event := []
  debouncer : Debouncer Unit := {}
  signalled : Bool := false
  busy : Bool := false
deriving DecidableEq, Repr

namespace Loop

inductive Move where
  | arrive (e : Event)
  | look
  | trouble
  | expire
  | advance (body : Nat)
  | call
  | finish (failed : Bool)
deriving DecidableEq, Repr

/-- What is seen of a loop: a call of the handler, and what it logs as a warning or an error. -/
inductive Sign where
  | called
  | handlerFailed
  | troubled
deriving DecidableEq, Repr

/-- A loop before its first move. With `initial` the file is reported as it is. -/
def start (path : Bytes) (initial : Bool) : Loop := { path := path, signalled := initial }

def look (l : Loop) : Loop :=
  match l.busy, l.events with
  | false, e :: rest =>
    let d := if e.isRelevant l.path then l.debouncer.trigger () else l.debouncer
    { l with events := rest, debouncer := d }
  | _, _ => l

/-- A step of an expired timer; a signal that finds one waiting is dropped. -/
def advance (l : Loop) (i : Nat) : Loop :=
  let (d, ran) := l.debouncer.advance i
  { l with debouncer := d, signalled := l.signalled || ran.isSome }

/-- One move, and what is seen of it. The loop goes on after a handler that failed, and after trouble
with the watch itself. -/
def step (l : Loop) : Move → Loop × Option Sign
  | .arrive e => ({ l with events := l.events ++ [e] }, none)
  | .look => (l.look, none)
  | .trouble => (l, if l.busy then none else some .troubled)
  | .expire => ({ l with debouncer := l.debouncer.expire }, none)
  | .advance i => (l.advance i, none)
  | .call =>
    if l.signalled && !l.busy then ({ l with signalled := false, busy := true }, some .called)
    else (l, none)
  | .finish failed =>
    ({ l with busy := false }, if l.busy && failed then some .handlerFailed else none)

def run (l : Loop) : List Move → Loop × List Sign
  | [] => (l, [])
  | m :: rest =>
    let (l, sign) := l.step m
    let (l, more) := run l rest
    (l, sign.toList ++ more)

def isIdle (l : Loop) : Bool :=
  l.events.isEmpty && !l.debouncer.armed && l.debouncer.bodies.isEmpty && !l.signalled && !l.busy

def toEnd (l : Loop) : List Move :=
  [.finish false, .call, .finish false] ++ List.replicate l.events.length .look ++ [.expire] ++
    List.replicate (3 * (l.debouncer.bodies.length + 1)) (.advance 0) ++ [.call, .finish false]

def settle (l : Loop) : Loop × Nat :=
  let (l, signs) := l.run l.toEnd
  (l, signs.count .called)

end Loop

def defaultDebounce : Int := 100000000

inductive Error where
  | running
  | unwatched (folder : Bytes) (why : Disk.Trouble)
deriving DecidableEq, Repr

def Error.message : Error → Bytes
  | running => "watcher already running"
  | unwatched folder why => "watch " ++ Quoted.quote folder ++ ": " ++ why.message

/-- A watcher of an absolute path; its loop is there while it runs. With `initial` it reports the file
as it is at the start. -/
structure Watcher where
  path : Bytes
  initial : Bool := false
  debounce : Int := defaultDebounce
  loop : Option Loop := none

namespace Watcher

/-- A delay that is not positive stands for the default. -/
def make (path : Bytes) (debounce : Int) (initial : Bool) : Watcher :=
  { path := path, initial := initial
    debounce := if debounce > 0 then debounce else defaultDebounce }

def folder (w : Watcher) : Bytes := Path.folder w.path

def start (w : Watcher) (there : Except Disk.Trouble Bool) : Except Error Watcher :=
  match w.loop, there with
  | some _, _ => .error .running
  | none, .error why => .error (.unwatched w.folder why)
  | none, .ok _ => .ok { w with loop := some (.start w.path w.initial) }

def stop (w : Watcher) : Watcher := { w with loop := none }

def arrive (w : Watcher) (es : List Event) : Watcher :=
  { w with loop := w.loop.map fun l => (l.run (es.map .arrive)).1 }

def settle (w : Watcher) : Watcher × Nat :=
  match w.loop with
  | none => (w, 0)
  | some l =>
    let (l, n) := l.settle
    ({ w with loop := some l }, n)

end Watcher

end DistanceField.Watch
