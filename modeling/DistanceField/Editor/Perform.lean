import DistanceField.Editor.Files
import DistanceField.Editor.Model

/-! Carrying out what the editor asks for, on a disk. -/
namespace DistanceField.Editor.Model

def compiled (m : Model) (source : Bytes) : Model :=
  let (u, m) := m.submit source
  (m.update (.compiled u)).1

/-- Carries out a command; whether the editor ends. `other` is what another editor makes of a text, or
why it fails. -/
def perform (other : Bytes → Except Bytes Bytes) (m : Model) (disk : Disk) :
    Command → Model × Disk × Bool
  | .quit => (m, disk, true)
  | .save path source =>
    match disk.write path source with
    | .ok disk => ((m.update (.saved source none)).1, disk, false)
    | .error e => ((m.update (.saved source (some e.message))).1, disk, false)
  | .compile source => (m.compiled source, disk, false)
  | .external source =>
    match other source with
    | .error why => ((m.update (.edited [] (some (externalFailure why)))).1, disk, false)
    | .ok new => ((m.update (.edited new none)).1.compiled new, disk, false)

def performAll (other : Bytes → Except Bytes Bytes) (m : Model) (disk : Disk) :
    List Command → Model × Disk × Bool
  | [] => (m, disk, false)
  | c :: rest =>
    let (m, disk, ended) := m.perform other disk c
    let (m, disk, more) := performAll other m disk rest
    (m, disk, ended || more)

end DistanceField.Editor.Model
