import DistanceField.Text.Quoted

/-! Profiles of a run. None is built in. -/
namespace DistanceField.Command

def profileModes : List Bytes := []

def checkProfile (mode : Bytes) : Except Bytes Unit :=
  if mode.isEmpty || profileModes.contains mode then .ok ()
  else .error ("unsupported profile mode: " ++ Quoted.quote mode)

end DistanceField.Command
