import DistanceField.Text.Bytes

/-! The geometry functions: their names, what they take and what they do. -/
namespace DistanceField

inductive Shape where
  | group
  | union
  | intersection
  | diff
  | box
  | sphere
  | cylinder
  | trans
  | rot
  | arot
  | scale
  | other (code : Int)
deriving DecidableEq, Repr

namespace Shape

def known : List Shape :=
  [group, union, intersection, diff, box, sphere, cylinder, trans, rot, arot, scale]

def ofCode (n : Int) : Shape := if n < 0 then other n else known.getD n.toNat (other n)

def code : Shape → Int
  | group => 0
  | union => 1
  | intersection => 2
  | diff => 3
  | box => 4
  | sphere => 5
  | cylinder => 6
  | trans => 7
  | rot => 8
  | arot => 9
  | scale => 10
  | other n => n

def name : Shape → Bytes
  | group => "group"
  | union => "union"
  | intersection => "intersection"
  | diff => "diff"
  | box => "box"
  | sphere => "sphere"
  | cylinder => "cylinder"
  | trans => "trans"
  | rot => "rot"
  | arot => "arot"
  | scale => "scale"
  | other n => "GeometryKind(" ++ Bytes.ofInt n ++ ")"

def named : List Shape := known.drop 1

/-- A name that stands for no shape makes a group. -/
def ofName (n : Bytes) : Shape := (named.find? (·.name == n)).getD group

def names : List Bytes := named.map name

end Shape

structure Param where
  name : Bytes
  default : Nat

structure Schema where
  shape : Shape
  summary : Bytes
  params : List Param

namespace Schema

def xyz (d : Nat) : List Param := [⟨"x", d⟩, ⟨"y", d⟩, ⟨"z", d⟩]

/-- A shape without a meaning declares nothing. -/
def ofShape : Shape → Schema
  | .group => ⟨.group, "union of operands (unrecognized name)", []⟩
  | .union => ⟨.union, "union of operands", []⟩
  | .intersection => ⟨.intersection, "intersection of operands", []⟩
  | .diff => ⟨.diff, "first operand minus each following operand", []⟩
  | .box => ⟨.box, "box standing on the origin; operands stack on top", xyz 1⟩
  | .sphere => ⟨.sphere, "sphere resting on the origin; operands stack on top", [⟨"d", 1⟩]⟩
  | .cylinder =>
    ⟨.cylinder, "cylinder standing on the origin; operands stack on top", [⟨"h", 1⟩, ⟨"d", 1⟩]⟩
  | .trans => ⟨.trans, "translate operands", xyz 0⟩
  | .rot => ⟨.rot, "rotate operands about X, then Y, then Z (degrees)", xyz 0⟩
  | .arot => ⟨.arot, "rotate operands, then lower them 1.5 along the rotated Z", xyz 0⟩
  | .scale => ⟨.scale, "scale operands uniformly", [⟨"r", 1⟩]⟩
  | .other _ => ⟨.group, [], []⟩

def default? (s : Schema) (name : Bytes) : Option Nat :=
  (s.params.find? (·.name == name)).map (·.default)

def index? (s : Schema) (name : Bytes) : Option Nat := s.params.findIdx? (·.name == name)

def Param.write (p : Param) : Bytes := p.name ++ "=" ++ Bytes.ofNat p.default

def signature (s : Schema) : Bytes :=
  if s.params.isEmpty then s.shape.name
  else s.shape.name ++ "(" ++ Bytes.join ", " (s.params.map Param.write) ++ ")"

end Schema

end DistanceField
