import DistanceField.Fault
import DistanceField.Storage.Disk
import DistanceField.Text.Letter

/-! The editor's files: the source it opens, and the other editor that a source can be handed
to. -/
namespace DistanceField.Editor

/-- A source to edit, as it was read; one that is not there yet is empty. -/
def load (path : Bytes) : Except Disk.Failure Bytes → Except Fault Bytes
  | .ok b => .ok b
  | .error e =>
    if e.trouble == .missing then .ok []
    else .error (((Fault.ofSource Fault.reading).wrap (.plain e.message)).withAttrs
      [.text "file" path])

def editorCommand (visual editor path : Bytes) : List Bytes :=
  let command := Letter.fields (if visual.isEmpty then editor else visual)
  (if command.isEmpty then [Bytes.ofString "vi"] else command) ++ [path]

def externalFailure (why : Bytes) : Bytes := "external editor failed: " ++ why

end DistanceField.Editor
