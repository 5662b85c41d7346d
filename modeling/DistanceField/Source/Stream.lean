import DistanceField.Source.Formatter
import DistanceField.Storage.Sink
import DistanceField.Text.JsonReader

/-! Trees written piece by piece to output that may run full. Nothing is written behind a piece that did
not fit. -/
namespace DistanceField.Stream

inductive Stop where
  | full
  | malformed (why : Malformed)
  | refused (why : Json.Trouble)
deriving DecidableEq, Repr

def Stop.message : Stop → Bytes
  | full => Sink.full
  | malformed m => m.message
  | refused t => t.message

abbrev Writing := ExceptT Stop (StateM Sink) Unit

/-- Writes a piece, or what of it there is room for. -/
def put (b : Bytes) : Writing := fun s =>
  let (all, s) := s.write b
  (if all then .ok () else .error .full, s)

mutual

def node (depth : Nat) : Node → Writing
  | .missing => throw (.malformed (.unknownNode (Node.describe .missing)))
  | .number v s => put (Dump.numberLine depth v s)
  | .operator op l r s => do
    put (Dump.operatorLine depth op s)
    node (depth + 1) l
    node (depth + 1) r
  | .function f => function depth f
  | .root fs s => do
    put (Dump.rootLine depth s)
    functions (depth + 1) fs

def function (depth : Nat) : Function → Writing
  | .mk name params operands s => do
    put (Dump.functionLine depth name s)
    parameters (depth + 1) params
    functions (depth + 1) operands

def parameters (depth : Nat) : List (Bytes × Node) → Writing
  | [] => pure ()
  | (name, value) :: rest => do
    put (Dump.parameterLine depth name)
    node (depth + 1) value
    parameters depth rest

def functions (depth : Nat) : List Function → Writing
  | [] => pure ()
  | f :: rest => do
    function depth f
    functions depth rest

end

mutual

def call (indent : Int) (depth : Nat) : Function → Writing
  | .mk name params operands _ => do
    put name
    unless params.isEmpty do
      put (Formatter.parens (Formatter.parameters params))
    unless operands.isEmpty do
      put " \x7b"
      calls indent (depth + 1) operands
      put (Formatter.separator indent depth ++ "\x7d")

def calls (indent : Int) (depth : Nat) : List Function → Writing
  | [] => pure ()
  | f :: rest => do
    put (Formatter.separator indent depth)
    call indent depth f
    calls indent depth rest

end

def topLevel (indent : Int) : List Function → Writing
  | [] => pure ()
  | [f] => call indent 0 f
  | f :: rest => do
    call indent 0 f
    put (Formatter.separator indent 0)
    topLevel indent rest

def dump (d : Document) : Writing := node 0 d.node

def format (indent : Int) (d : Document) : Writing := do
  topLevel indent d.operands
  put "\n"

/-- Writes what was made as a whole, and nothing if that failed. -/
def putOr : Except Json.Trouble Bytes → Writing
  | .ok b => put b
  | .error why => throw (.refused why)

def run (w : Writing) (s : Sink) : Sink × Option Stop :=
  match w s with
  | (.ok _, s) => (s, none)
  | (.error e, s) => (s, some e)

end DistanceField.Stream
