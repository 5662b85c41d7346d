import DistanceField.Storage.Disk
import DistanceField.Storage.Sink

/-! The machine that commands run on. -/
namespace DistanceField.Command

class Host (m : Type → Type) extends Monad m where
  read : (path : Bytes) → m (Except Disk.Failure Bytes)
  /-- Whether a path leads to a directory. -/
  isDirectory : (path : Bytes) → m (Except Disk.Trouble Bool)
  write : (path content : Bytes) → m (Except Disk.Failure Unit)
  append : (path content : Bytes) → m (Except Disk.Failure Unit)
  replace : (path content : Bytes) → m (Except Disk.Failure Unit)
  makeAll : (path : Bytes) → m (Except Disk.Failure Unit)
  /-- All of standard input. -/
  input : m Bytes
  /-- Writes to standard output; whether there was room for all. -/
  print : Bytes → m Bool
  /-- Writes to the log. -/
  report : Bytes → m Unit
  /-- Nanoseconds since some moment. -/
  clock : m Int

instance {ε : Type} {m : Type → Type} [Host m] : Host (ExceptT ε m) where
  read path := ExceptT.lift (Host.read path)
  isDirectory path := ExceptT.lift (Host.isDirectory path)
  write path content := ExceptT.lift (Host.write path content)
  append path content := ExceptT.lift (Host.append path content)
  replace path content := ExceptT.lift (Host.replace path content)
  makeAll path := ExceptT.lift (Host.makeAll path)
  input := ExceptT.lift Host.input
  print b := ExceptT.lift (Host.print b)
  report b := ExceptT.lift (Host.report b)
  clock := ExceptT.lift Host.clock

/-- A machine as a value, whose clock stands still. `suffix` ends the names of drafts. -/
structure Machine where
  disk : Disk := {}
  input : Bytes := []
  output : Sink := {}
  log : Bytes := []
  suffix : Bytes := []

namespace Machine

def change (f : Machine → Except Disk.Failure Disk) : StateM Machine (Except Disk.Failure Unit) :=
  fun m => match f m with
    | .ok d => (.ok (), { m with disk := d })
    | .error e => (.error e, m)

instance : Host (StateM Machine) where
  read := fun path m => (m.disk.read path, m)
  isDirectory := fun path m => (m.disk.isDirectory path, m)
  write := fun path content => change fun m => m.disk.write path content
  append := fun path content => change fun m => m.disk.append path content
  replace := fun path content => change fun m => m.disk.replace path content m.suffix
  makeAll := fun path => change fun m => m.disk.makeAll path
  input := fun m => (m.input, { m with input := [] })
  print := fun b m =>
    let (all, out) := m.output.write b
    (all, { m with output := out })
  report := fun b m => ((), { m with log := m.log ++ b })
  clock := fun m => (0, m)

end Machine

end DistanceField.Command
