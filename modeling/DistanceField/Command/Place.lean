import DistanceField.Storage.Path
import DistanceField.Number.Integer

/-! Where a program keeps its configuration and its transient files. -/
namespace DistanceField.Command

def programName : Bytes := "sdfc"

def programVersion : Bytes := "0.1.0"

/-- The variables that tell where files are kept; an empty one is not set. -/
structure Environment where
  home : Bytes := []
  configHome : Bytes := []
  cacheHome : Bytes := []
  here : Bytes := []

namespace Environment

/-- The directory that a variable names if it is absolute, else one in the home directory, else the
working directory. -/
def directory (e : Environment) (named below : Bytes) : Bytes :=
  if Path.isAbsolute named then named
  else if e.home.isEmpty then e.here
  else e.home ++ "/" ++ below

end Environment

def isDebugName (n : Bytes) : Bool :=
  match Bytes.after? "__debug_bin" n with
  | some rest => !rest.isEmpty && rest.all Integer.isDigit
  | none => false

/-- The name that directories are called by: the executable's, without what follows its last dot
and without dots in front. -/
def directoryName (executable : Bytes) : Bytes :=
  let n := Path.stem (Path.base executable)
  if isDebugName n then programName else n.dropWhile (· == 46)

structure Places where
  config : Bytes
  cache : Bytes

def Places.of (e : Environment) (executable : Bytes) : Places :=
  let n := directoryName executable
  ⟨Path.join [e.directory e.configHome ".config", n], Path.join [e.directory e.cacheHome ".cache", n]⟩

def Places.configFile (p : Places) : Bytes := Path.join [p.config, "config.yaml"]

def Places.plainConfigFile (p : Places) : Bytes := Path.join [p.config, "config.json"]

def Places.editLog (p : Places) : Bytes := Path.join [p.cache, "edit.log"]

end DistanceField.Command
