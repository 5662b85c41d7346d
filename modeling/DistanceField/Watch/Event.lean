import DistanceField.Storage.Path

/-! What happens to files in a watched directory. -/
namespace DistanceField.Watch

inductive Change where
  | create
  | write
  | remove
  | rename
  | chmod
deriving DecidableEq, Repr

structure Event where
  name : Bytes
  changes : List Change
deriving DecidableEq, Repr

/-- A path from the root, in its shortest spelling; a relative one starts from `here`. -/
def absolute (here path : Bytes) : Bytes :=
  if Path.isAbsolute path then Path.clean path else Path.join [here, path]

/-- Whether an event gives the file at `path` new content. -/
def Event.isRelevant (e : Event) (path : Bytes) : Bool :=
  Path.clean e.name == path && (e.changes.contains .write || e.changes.contains .create)

end DistanceField.Watch
