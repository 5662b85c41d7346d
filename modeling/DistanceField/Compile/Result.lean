import DistanceField.Compile.Hash
import DistanceField.Fault
import DistanceField.Shader.Generate
import DistanceField.Source.Parser

/-! From a source text to its distance function. -/
namespace DistanceField

structure Result where
  document : Document
  tree : Geometry Float
  code : Bytes
  warnings : List Warning
  hash : UInt64
  helpers : Nat

def digit36 (n : Nat) : UInt8 := (if n < 10 then 48 + n else 87 + n).toUInt8

def base36 (n : Nat) : Bytes :=
  if n < 36 then [digit36 n] else base36 (n / 36) ++ [digit36 (n % 36)]

/-- The hash in base thirty-six, quoted: it names the code in answers to clients. -/
def Result.etag (r : Result) : Bytes :=
  "\"" ++ base36 r.hash.toNat ++ "\""

def Malformed.fault (m : Malformed) : Fault := .plain m.message

def Result.ofDocument (d : Document) (warnings : List Warning) : Except Fault Result :=
  match d.geometry with
  | .error m => .error m.fault
  | .ok tree =>
    let program := Shader.program tree
    let code := program.write
    .ok ⟨d, tree, code, warnings, Hash.hash code, program.helpers.length⟩

/-- A compile of `source`; a repeated parameter is an error when `strict`. -/
def compile (strict : Bool) (source : Bytes) : Except Fault Result :=
  match parse strict source with
  | ⟨_, .error c⟩ => .error c.fault
  | ⟨warnings, .ok d⟩ => Result.ofDocument d warnings

def calledOff : Fault := (Fault.ofSource Fault.canceled).wrap (.plain "context canceled")

def compileUnless (canceled strict : Bool) (source : Bytes) : Except Fault Result :=
  if canceled then .error calledOff else compile strict source

def unreadable (cause : Fault) : Fault := (Fault.ofSource Fault.reading).wrap cause

end DistanceField
