import DistanceField.Source.Complaint
import DistanceField.Number.Decimal

/-! The tree of a source text. Arithmetic and functions share one type of nodes, since the text
may mix them; only well-formed mixtures are accepted. -/
namespace DistanceField

mutual

inductive Node where
  | missing
  | number (value : Float) (span : Interval)
  | operator (op : Kind) (lhs rhs : Node) (span : Interval)
  | function (f : Function)
  | root (operands : List Function) (span : Interval)

/-- A named call: parameters by first appearance of their names, then the operands. -/
inductive Function where
  | mk (name : Bytes) (params : List (Bytes × Node)) (operands : List Function) (span : Interval)

end

instance : Inhabited Node := ⟨.missing⟩

instance : Inhabited Function := ⟨.mk [] [] [] .none⟩

namespace Function

def name : Function → Bytes
  | mk n _ _ _ => n

def params : Function → List (Bytes × Node)
  | mk _ p _ _ => p

def operands : Function → List Function
  | mk _ _ o _ => o

def span : Function → Interval
  | mk _ _ _ s => s

def param? (f : Function) (name : Bytes) : Option Node := f.params.lookup name

/-- A later value for a name takes the place of the earlier one. -/
def assign (f : Function) (name : Bytes) (value : Node) : Function :=
  let s := f.span
  if (f.param? name).isSome then
    mk f.name (f.params.map fun (n, v) => if n == name then (n, value) else (n, v)) f.operands s
  else mk f.name (f.params ++ [(name, value)]) f.operands s

def addOperand (f g : Function) : Function := mk f.name f.params (f.operands ++ [g]) f.span

def cover (f : Function) (i : Interval) : Function :=
  mk f.name f.params f.operands (f.span.union i)

end Function

structure Document where
  operands : List Function
  span : Interval

def Document.add (d : Document) (f : Function) : Document :=
  ⟨d.operands ++ [f], d.span.union f.span⟩

namespace Node

def span : Node → Interval
  | missing => .none
  | number _ s => s
  | operator _ _ _ s => s
  | function f => f.span
  | root _ s => s

def describe : Node → Bytes
  | missing => "<nil>"
  | number _ _ => Kind.number.name
  | operator op _ _ _ => op.name
  | function f => f.name
  | root _ _ => "ROOT"

def function? : Node → Option Function
  | function f => some f
  | operator _ l r _ => l.function?.or r.function?
  | _ => none

end Node

inductive Malformed where
  | unknownNode (what : Bytes)
  | invalidOperator (op : Kind)
  | invalidExpression (what : Bytes)
deriving DecidableEq, Repr

def Malformed.message : Malformed → Bytes
  | unknownNode w => "internal error: unknown node " ++ w
  | invalidOperator op => "internal error: invalid operator " ++ op.name
  | invalidExpression w => "internal error: invalid expression node " ++ w

/-- Arithmetic in double precision: a division by zero is infinite or not a number. -/
def Node.evaluate : Node → Except Malformed Float
  | .number v _ => .ok v
  | .operator op l r _ => do
    let a ← l.evaluate
    let b ← r.evaluate
    match op with
    | .plus => .ok (a + b)
    | .minus => .ok (a - b)
    | .star => .ok (a * b)
    | .slash => .ok (a / b)
    | _ => .error (.invalidOperator op)
  | n => .error (.invalidExpression n.describe)

namespace Dump

def line (depth : Nat) (b : Bytes) : Bytes := Bytes.spaces (2 * depth) ++ b ++ "\n"

def numberLine (depth : Nat) (v : Float) (s : Interval) : Bytes :=
  line depth ("Number " ++ Decimal.text Decimal.general v ++ " " ++ s.toBytes)

def operatorLine (depth : Nat) (op : Kind) (s : Interval) : Bytes :=
  line depth ("Operator " ++ op.name ++ " " ++ s.toBytes)

def functionLine (depth : Nat) (name : Bytes) (s : Interval) : Bytes :=
  line depth ("Function " ++ name ++ " " ++ s.toBytes)

def parameterLine (depth : Nat) (name : Bytes) : Bytes := line depth (name ++ " =")

def rootLine (depth : Nat) (s : Interval) : Bytes := line depth ("Root " ++ s.toBytes)

mutual

def node (depth : Nat) : Node → Except Malformed Bytes
  | .missing => .error (.unknownNode (Node.describe .missing))
  | .number v s => .ok (numberLine depth v s)
  | .operator op l r s => do
    let a ← node (depth + 1) l
    let b ← node (depth + 1) r
    .ok (operatorLine depth op s ++ a ++ b)
  | .function f => function depth f
  | .root fs s => do
    let rest ← functions (depth + 1) fs
    .ok (rootLine depth s ++ rest)

def function (depth : Nat) : Function → Except Malformed Bytes
  | .mk name params operands s => do
    let ps ← parameters (depth + 1) params
    let os ← functions (depth + 1) operands
    .ok (functionLine depth name s ++ ps ++ os)

def parameters (depth : Nat) : List (Bytes × Node) → Except Malformed Bytes
  | [] => .ok []
  | (name, value) :: rest => do
    let v ← node (depth + 1) value
    let more ← parameters depth rest
    .ok (parameterLine depth name ++ v ++ more)

def functions (depth : Nat) : List Function → Except Malformed Bytes
  | [] => .ok []
  | f :: rest => do
    let a ← function depth f
    let more ← functions depth rest
    .ok (a ++ more)

end

end Dump

def Node.dump (n : Node) : Except Malformed Bytes := Dump.node 0 n

def Document.node (d : Document) : Node := .root d.operands d.span

def Document.dump (d : Document) : Except Malformed Bytes := d.node.dump

end DistanceField
