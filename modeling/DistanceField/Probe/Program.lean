import DistanceField.Probe.Definition
import DistanceField.Probe.Evaluate

/-! Evaluating generated text at a point. -/
namespace DistanceField.Probe

inductive Error where
  | noDefinitions
  | unexpectedText (offset : Nat)
  | definedTwice (name : Bytes)
  | badBody (name : Bytes)
  | undefined (name : Bytes)
  | mismatch (m : Mismatch)
  | failed (name : Bytes) (stop : Stop)
deriving DecidableEq, Repr

def Error.message : Error → Bytes
  | noDefinitions => "malformed definition: no definitions found"
  | unexpectedText n => "malformed definition: unexpected text at offset " ++ Bytes.ofNat n
  | definedTwice name => "malformed definition: " ++ name ++ " defined twice"
  | badBody name => "failed to compile definition " ++ name
  | undefined name => "undefined function: " ++ name
  | mismatch m => m.message
  | failed name _ => "failed to evaluate definition " ++ name

/-- The definitions in order; each may call any other. -/
structure Program where
  definitions : List (Bytes × Expr)

namespace Program

def definitionsOf (code : Bytes) : Except Error (List Definition) :=
  let found := Definition.search 0 0 code
  let ds := found.map (·.definition)
  if found.isEmpty then .error .noDefinitions
  else match Definition.uncovered? code.length 0 found with
    | some offset => .error (.unexpectedText offset)
    | none =>
      match Definition.repeated? ds [] with
      | some name => .error (.definedTwice name)
      | none => .ok ds

def callable (ds : List Definition) : List Bytes :=
  Builtin.all.map Builtin.name ++ ds.map (·.name)

def body? (functions : List Bytes) (d : Definition) : Option Expr := do
  let e ← Expr.read? d.body
  let _ ← e.kind? functions
  pure e

def bodies (functions : List Bytes) : List Definition → Except Error (List (Bytes × Expr))
  | [] => .ok []
  | d :: ds =>
    match body? functions d with
    | none => .error (.badBody d.name)
    | some e => (bodies functions ds).map ((d.name, e) :: ·)

def compile (code : Bytes) : Except Error Program := do
  let ds ← definitionsOf code
  let bs ← bodies (callable ds) ds
  .ok ⟨bs⟩

def functions (p : Program) : List Bytes := p.definitions.map (·.1)

/-- A call by name, at most `fuel` definitions deep; a definition hides the builtin of its name. -/
def call (p : Program) : (fuel : Nat) → Bytes → List Value → Except Stop Value
  | 0, _, _ => .error .meaningless
  | n + 1, f, args =>
    match p.definitions.lookup f with
    | none => match Builtin.ofName? f with
      | some b => b.apply args
      | none => .error .meaningless
    | some e =>
      match args with
      | [.vector cs] => e.evaluate (p.call n) (.vector cs)
      | [a] => .error (.mismatch (.definitionArgument f a.kind))
      | as => .error (.mismatch (.definitionArity f as.length))

/-- How deep calls may nest: without recursion each definition is entered at most once on the way
down, and the rest is for recursion that ends. -/
def depth (p : Program) : Nat := p.definitions.length + 2000

def evaluate (p : Program) (name : Bytes) (x y z : Float) : Except Error Float :=
  if (p.definitions.lookup name).isNone then .error (.undefined name)
  else match p.call p.depth name [.vector [x, y, z]] with
    | .error s => .error (.failed name s)
    | .ok v => match v.scalar with
      | .ok r => .ok r
      | .error (.mismatch m) => .error (.mismatch m)
      | .error s => .error (.failed name s)

end Program

end DistanceField.Probe
