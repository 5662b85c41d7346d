import DistanceField.Text.Quoted
import DistanceField.Number.Double

/-! Values of distance functions: numbers, vectors, and what else an expression can name. -/
namespace DistanceField.Probe

inductive Value where
  | float (v : Float)
  | whole (n : Int)
  | vector (cs : List Float)
  | text (b : Bytes)
  | truth (b : Bool)
  | nothing

namespace Value

def kind : Value → Bytes
  | float _ => "float64"
  | whole _ => "int"
  | vector _ => "probe.Vec"
  | text _ => "string"
  | truth _ => "bool"
  | nothing => "<nil>"

def sizedKind : Value → Bytes
  | vector cs => "vec" ++ Bytes.ofNat cs.length
  | v => v.kind

end Value

inductive Mismatch where
  | arity (want got : Nat)
  | vectorArity (got : Nat)
  | definitionArity (name : Bytes) (got : Nat)
  | definitionArgument (name kind : Bytes)
  | sizes (a b : Nat)
  | notScalar (kind : Bytes)
  | notVector (kind : Bytes)
  | selector (kind : Bytes)
  | swizzle (sel : Bytes)
  | swizzleSize (sel : Bytes) (size : Nat)
deriving DecidableEq, Repr

namespace Mismatch

def detail : Mismatch → Bytes
  | arity 1 got => "expected 1 argument, got " ++ Bytes.ofNat got
  | arity want got => "expected " ++ Bytes.ofNat want ++ " arguments, got " ++ Bytes.ofNat got
  | vectorArity got => "vec3 takes 3 arguments, got " ++ Bytes.ofNat got
  | definitionArity name got => name ++ " takes 1 argument, got " ++ Bytes.ofNat got
  | definitionArgument name kind => name ++ " expects vec3, got " ++ kind
  | sizes a b => "vector sizes " ++ Bytes.ofNat a ++ " and " ++ Bytes.ofNat b
  | notScalar kind => "expected scalar, got " ++ kind
  | notVector kind => "expected vector, got " ++ kind
  | selector kind => "swizzle selector " ++ kind
  | swizzle sel => "invalid swizzle " ++ Quoted.quote sel
  | swizzleSize sel size =>
    "invalid swizzle " ++ Quoted.quote sel ++ " for vec" ++ Bytes.ofNat size

def message (m : Mismatch) : Bytes := "type mismatch: " ++ m.detail

end Mismatch

/-- Why an evaluation stops: a mismatch, or a step that has no meaning at all. -/
inductive Stop where
  | mismatch (m : Mismatch)
  | meaningless
deriving DecidableEq, Repr

def Value.scalar (v : Value) : Except Stop Float :=
  match v with
  | .float x => .ok x
  | .whole n => .ok (Float.ofInt n)
  | v => .error (.mismatch (.notScalar v.sizedKind))

def Value.components (v : Value) : Except Stop (List Float) :=
  match v with
  | .vector cs => .ok cs
  | v => .error (.mismatch (.notVector v.kind))

end DistanceField.Probe
