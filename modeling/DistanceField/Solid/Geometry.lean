import DistanceField.Number.Scalar
import DistanceField.Solid.Shape
import DistanceField.Source.Tree

/-! Trees of solids with evaluated parameters. -/
namespace DistanceField

inductive Geometry (α : Type) where
  | mk (name : Bytes) (shape : Shape) (params : List (Bytes × α)) (children : List (Geometry α))

namespace Geometry

variable {α : Type}

instance : Inhabited (Geometry α) := ⟨.mk [] .group [] []⟩

def name : Geometry α → Bytes
  | mk n _ _ _ => n

def shape : Geometry α → Shape
  | mk _ s _ _ => s

def params : Geometry α → List (Bytes × α)
  | mk _ _ p _ => p

def children : Geometry α → List (Geometry α)
  | mk _ _ _ c => c

/-- A parameter's value, else the default of the shape, else zero. -/
def lookup [Scalar α] (shape : Shape) (params : List (Bytes × α)) (name : Bytes) : α :=
  (params.lookup name).getD (Scalar.natural (((Schema.ofShape shape).default? name).getD 0))

def param [Scalar α] (g : Geometry α) (name : Bytes) : α := lookup g.shape g.params name

/-- Names of the given parameters: the declared ones in the order of the schema, then the others
sorted. -/
def paramNames (g : Geometry α) : List Bytes :=
  let schema := Schema.ofShape g.shape
  let given := g.params.map (·.1)
  (schema.params.map (·.name)).filter given.contains ++
    Bytes.sorted (given.filter fun n => (schema.index? n).isNone)

def sortedParams (ps : List (Bytes × α)) : List (Bytes × α) :=
  ps.mergeSort fun a b => !Bytes.before b.1 a.1

end Geometry

def evaluateParams : List (Bytes × Node) → Except Malformed (List (Bytes × Float))
  | [] => .ok []
  | (n, e) :: rest => do
    let v ← e.evaluate
    let vs ← evaluateParams rest
    .ok ((n, v) :: vs)

mutual

def Function.geometry : Function → Except Malformed (Geometry Float)
  | .mk name params operands _ => do
    let ps ← evaluateParams params
    let cs ← Function.geometries operands
    .ok (.mk name (.ofName name) ps cs)

def Function.geometries : List Function → Except Malformed (List (Geometry Float))
  | [] => .ok []
  | f :: rest => do
    let g ← f.geometry
    let gs ← Function.geometries rest
    .ok (g :: gs)

end

/-- The union of the top-level functions. -/
def Document.geometry (d : Document) : Except Malformed (Geometry Float) := do
  let cs ← Function.geometries d.operands
  .ok (.mk Shape.union.name .union [] cs)

end DistanceField
