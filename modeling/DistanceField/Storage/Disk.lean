import DistanceField.Storage.Path

/-! Files in directories. -/
namespace DistanceField

inductive Disk.Trouble where
  | missing
  | isDirectory
  | notDirectory
  | exists
deriving DecidableEq, Repr

def Disk.Trouble.message : Disk.Trouble → Bytes
  | .missing => "no such file or directory"
  | .isDirectory => "is a directory"
  | .notDirectory => "not a directory"
  | .exists => "file exists"

structure Disk.Failure where
  action : Bytes
  path : Bytes
  trouble : Disk.Trouble
deriving DecidableEq, Repr

def Disk.Failure.message (f : Disk.Failure) : Bytes :=
  f.action ++ " " ++ f.path ++ ": " ++ f.trouble.message

inductive Disk.Entry where
  | file (content : Bytes)
  | directory
deriving DecidableEq, Repr

/-- The entries below the root, each with the names that lead to it, and the directory that
relative paths start from. -/
structure Disk where
  here : List Bytes := []
  entries : List (List Bytes × Disk.Entry) := []

namespace Disk

def find? (d : Disk) (at_ : List Bytes) : Option Entry :=
  if at_.isEmpty || at_.isPrefixOf d.here then some .directory else d.entries.lookup at_

def put (d : Disk) (at_ : List Bytes) (e : Entry) : Disk :=
  { d with entries := d.entries.filter (fun x => x.1 != at_) ++ [(at_, e)] }

/-- Follows names from a directory; all but the last have to be directories. -/
def follow (d : Disk) (at_ : List Bytes) : List Bytes → Except Trouble (List Bytes)
  | [] => .ok at_
  | n :: rest =>
    match d.find? at_ with
    | none => .error .missing
    | some (.file _) => .error .notDirectory
    | some .directory => d.follow (if Path.isUp n then at_.dropLast else at_ ++ [n]) rest

def locate (d : Disk) (path : Bytes) : Except Trouble (List Bytes) :=
  if path.isEmpty then .error .missing
  else d.follow (if Path.isAbsolute path then [] else d.here) (Path.names path)

def entry (d : Disk) (path : Bytes) : Except Trouble Entry := do
  let at_ ← d.locate path
  match d.find? at_ with
  | none => .error .missing
  | some (.file b) => if path.getLast? == some 47 then .error .notDirectory else .ok (.file b)
  | some .directory => .ok .directory

def isDirectory (d : Disk) (path : Bytes) : Except Trouble Bool := (d.entry path).map (· == .directory)

def read (d : Disk) (path : Bytes) : Except Failure Bytes :=
  match d.entry path with
  | .error t => .error ⟨"open", path, t⟩
  | .ok .directory => .error ⟨"read", path, .isDirectory⟩
  | .ok (.file b) => .ok b

def place (d : Disk) (path : Bytes) : Except Trouble (List Bytes) := do
  let at_ ← d.locate path
  match d.find? at_, d.find? at_.dropLast with
  | some .directory, _ => .error .isDirectory
  | _, none => .error .missing
  | _, some (.file _) => .error .notDirectory
  | some (.file _), _ => if path.getLast? == some 47 then .error .notDirectory else .ok at_
  | none, _ => if path.getLast? == some 47 then .error .isDirectory else .ok at_

def write (d : Disk) (path content : Bytes) : Except Failure Disk :=
  match d.place path with
  | .error t => .error ⟨"open", path, t⟩
  | .ok at_ => .ok (d.put at_ (.file content))

/-- Writes at the end of a file, which need not be there. -/
def append (d : Disk) (path content : Bytes) : Except Failure Disk :=
  match d.place path with
  | .error t => .error ⟨"open", path, t⟩
  | .ok at_ =>
    match d.find? at_ with
    | some (.file old) => .ok (d.put at_ (.file (old ++ content)))
    | _ => .ok (d.put at_ (.file content))

/-- The file that holds the new content until it takes its place. -/
def draft (path suffix : Bytes) : Bytes :=
  Path.folder path ++ "/." ++ Path.base path ++ "." ++ suffix

/-- Writes a draft beside the file and moves it there, so that no reader sees a part of it. -/
def replace (d : Disk) (path content suffix : Bytes) : Except Failure Disk :=
  let temp := draft path suffix
  match d.place temp with
  | .error t => .error ⟨"open", temp, t⟩
  | .ok _ =>
    match d.place path with
    | .error .isDirectory => .error ⟨"rename", temp ++ " " ++ path, .exists⟩
    | .error t => .error ⟨"rename", temp ++ " " ++ path, t⟩
    | .ok at_ => .ok (d.put at_ (.file content))

def remove (d : Disk) (path : Bytes) : Disk :=
  match d.locate path with
  | .ok at_ => { d with entries := d.entries.filter fun x => x.1 != at_ }
  | .error _ => d

def lineage : Nat → Bytes → List Bytes
  | 0, path => [path]
  | n + 1, path =>
    match (path.reverse.dropWhile (· == 47)).dropWhile (· != 47) with
    | [] => [path]
    | [_] => [path]
    | _ :: above => path :: lineage n above.reverse

def makeEach (d : Disk) : List Bytes → Except Failure Disk
  | [] => .ok d
  | p :: rest =>
    match d.entry p with
    | .ok .directory => d.makeEach rest
    | .ok (.file _) => .error ⟨"mkdir", p, .notDirectory⟩
    | .error _ =>
      match d.locate p with
      | .error t => .error ⟨"mkdir", p, t⟩
      | .ok at_ => (d.put at_ .directory).makeEach rest

def makeAll (d : Disk) (path : Bytes) : Except Failure Disk :=
  d.makeEach (lineage path.length path).reverse

def listing (d : Disk) : List (Bytes × Entry) :=
  d.entries.filterMap fun (names, e) =>
    if d.here.isPrefixOf names then some (Bytes.join [47] (names.drop d.here.length), e) else none

def plant (d : Disk) (path content : Bytes) : Disk :=
  match d.makeAll (Path.folder path) with
  | .ok d => (d.write path content).toOption.getD d
  | .error _ => d

end Disk

end DistanceField
