import DistanceField.Fault

/-! Failures as commands report them. -/
namespace DistanceField.Command

def isStream (path : Bytes) : Bool := path.isEmpty || path == Bytes.ofString "-"

def sourceName (path : Bytes) : Bytes := if isStream path then "<stdin>" else path

def compileFault (path source : Bytes) (why : Fault) : Fault :=
  let name := sourceName path
  let failed := Fault.ofCommand Fault.compiling
  match why.source? with
  | some f =>
    if f.isLocated then
      let (line, col) := f.interval.position source
      (failed.withAttrs [.text "source" name, .int "line" line, .int "col" col]).wrap
        (.outer (name ++ ":" ++ Bytes.ofNat line ++ ":" ++ Bytes.ofNat col) why)
    else (failed.withAttrs [.text "source" name]).wrap (.outer name why)
  | none => (failed.withAttrs [.text "source" name]).wrap (.outer name why)

def writeFault (file : Bytes) (why : Fault) : Fault :=
  ((Fault.ofCommand Fault.writing).withAttrs [.text "file" file]).wrap why

def formatFault (format : Bytes) (why : Fault) : Fault :=
  ((Fault.ofCommand Fault.formatting).withAttrs [.text "format" format]).wrap why

end DistanceField.Command
