/-! Debouncing: of callbacks that follow each other closely only the last one runs. Timers run beside
each other, so a debouncer is a machine whose moves may come in any order. -/
namespace DistanceField.Watch

/-- How far an expired timer has come: it looks whether all was stopped, takes the callback that is
there, and runs it. -/
inductive Body (α : Type) where
  | looking
  | taking
  | running (callback : α)
deriving DecidableEq, Repr

/-- At most one timer is armed. Those that expired may still be under way. -/
structure Debouncer (α : Type) where
  stopped : Bool := false
  callback : Option α := none
  armed : Bool := false
  bodies : List (Body α) := []
deriving DecidableEq, Repr

namespace Debouncer

inductive Move (α : Type) where
  | trigger (callback : α)
  | stop
  | expire
  | advance (body : Nat)
deriving DecidableEq, Repr

variable {α : Type}

/-- A new timer takes the place of the armed one; one that expired goes on. -/
def trigger (d : Debouncer α) (callback : α) : Debouncer α :=
  if d.stopped then d else { d with callback := some callback, armed := true }

def stop (d : Debouncer α) : Debouncer α :=
  { d with stopped := true, callback := none, armed := false }

def expire (d : Debouncer α) : Debouncer α :=
  if d.armed then { d with armed := false, bodies := d.bodies ++ [.looking] } else d

/-- One step of the expired timer at a position, and the callback that it runs. -/
def advance (d : Debouncer α) (i : Nat) : Debouncer α × Option α :=
  let ended := { d with bodies := d.bodies.eraseIdx i }
  match d.bodies[i]? with
  | none => (d, none)
  | some .looking => (if d.stopped then ended else { d with bodies := d.bodies.set i .taking }, none)
  | some .taking =>
    match d.callback with
    | none => (ended, none)
    | some a => ({ d with callback := none, bodies := d.bodies.set i (.running a) }, none)
  | some (.running a) => (ended, some a)

def step (d : Debouncer α) : Move α → Debouncer α × Option α
  | .trigger a => (d.trigger a, none)
  | .stop => (d.stop, none)
  | .expire => (d.expire, none)
  | .advance i => d.advance i

def run (d : Debouncer α) : List (Move α) → Debouncer α × List α
  | [] => (d, [])
  | m :: rest =>
    let (d, ran) := d.step m
    let (d, more) := run d rest
    (d, ran.toList ++ more)

def toEnd (d : Debouncer α) : List (Move α) :=
  .expire :: List.replicate (3 * (d.bodies.length + 1)) (.advance 0)

def settle (d : Debouncer α) : Debouncer α × List α := d.run d.toEnd

end Debouncer

end DistanceField.Watch
