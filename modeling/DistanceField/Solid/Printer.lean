import DistanceField.Solid.Geometry
import DistanceField.Text.JsonReader
import DistanceField.Yaml.Scalar

/-! Geometry trees as JSON and as YAML. Parameters are sorted by name. -/
namespace DistanceField

/-- A finite number as it stands; JSON has no others, so they become texts. -/
def paramJson (v : Float) : Json :=
  match Double.view v with
  | .finite _ _ _ => .number (Decimal.text Decimal.plain v)
  | _ => .string (Decimal.text Decimal.plain v)

def paramsJson (ps : List (Bytes × Float)) : Json :=
  .object ((Geometry.sortedParams ps).map fun (n, v) => (n, paramJson v))

mutual

/-- A node without parameters or children leaves the field out. -/
def Geometry.json : Geometry Float → Json
  | .mk name _ params children =>
    let ps := if params.isEmpty then [] else [Json.field "params" (paramsJson params)]
    let cs := if children.isEmpty then [] else [Json.field "children" (.array (Geometry.jsons children))]
    .object (Json.field "name" (.string name) :: ps ++ cs)

def Geometry.jsons : List (Geometry Float) → List Json
  | [] => []
  | g :: rest => g.json :: Geometry.jsons rest

end

/-- One item a line for a positive indent, else on one line. -/
def Geometry.formatJson (indent : Int) (g : Geometry Float) : Except Json.Trouble Bytes := do
  let text ← if indent > 0 then g.json.pretty indent.toNat else .ok g.json.compact
  return text ++ "\n"

namespace Yaml

def entry (flow : Bool) (column : Nat) (p : Bytes × Float) : Bytes :=
  string flow column p.1 ++ ": " ++ float p.2

mutual

def flow : Geometry Float → Bytes
  | .mk name _ params children =>
    let entries := Bytes.join ", " ((Geometry.sortedParams params).map (entry true 4))
    let ps : Bytes := if params.isEmpty then [] else ", params: \x7b" ++ entries ++ "\x7d"
    let cs : Bytes := if children.isEmpty then [] else ", children: [" ++ flows children ++ "]"
    "\x7bname: " ++ string true 2 name ++ ps ++ cs ++ "\x7d"

def flows : List (Geometry Float) → Bytes
  | [] => []
  | [g] => flow g
  | g :: rest => flow g ++ ", " ++ flows rest

end

/-- The lines of an item: the first behind a dash, the others below it; empty ones stay empty. -/
def item : List Bytes → List Bytes
  | [] => []
  | l :: rest => ("- " ++ l) :: rest.map fun l => if l.isEmpty then l else "  " ++ l

mutual

def block (indent : Nat) : Geometry Float → List Bytes
  | .mk name _ params children =>
    let entries := (Geometry.sortedParams params).flatMap fun p =>
      Bytes.split 10 (Bytes.spaces indent ++ entry false (2 * indent) p)
    let ps := if params.isEmpty then [] else Bytes.ofString "params:" :: entries
    let cs := if children.isEmpty then [] else Bytes.ofString "children:" :: blocks indent children
    Bytes.split 10 ("name: " ++ string false indent name) ++ ps ++ cs

def blocks (indent : Nat) : List (Geometry Float) → List Bytes
  | [] => []
  | g :: rest => item (block indent g) ++ blocks indent rest

end

end Yaml

/-- Block style for a positive indent, else flow style. -/
def Geometry.formatYaml (indent : Int) (g : Geometry Float) : Bytes :=
  (if indent > 0 then Bytes.join "\n" (Yaml.block indent.toNat g) else Yaml.flow g) ++ "\n"

end DistanceField
