import DistanceField.Probe.Check

/-! The value of an expression. Operands come before their operation, from left to right. -/
namespace DistanceField.Probe

namespace Value

def element (v i : Value) : Except Stop Value :=
  match v, i with
  | .vector cs, .whole n => fetch cs n
  | .vector cs, .float x => fetch cs (truncate x)
  | _, _ => .error .meaningless
where
  truncate (x : Float) : Int :=
    match Double.view x with
    | .finite negative m e =>
      let n : Int := (m * pow2 e.toNat / pow2 (-e).toNat : Nat)
      if negative then -n else n
    | _ => Integer.least
  fetch (cs : List Float) (n : Int) : Except Stop Value :=
    let k := if n < 0 then cs.length + n else n
    if k < 0 then .error .meaningless
    else match cs[k.toNat]? with
      | some x => .ok (.float x)
      | none => .error .meaningless

def number? : Value → Option Float
  | .float x => some x
  | .whole n => some (Float.ofInt n)
  | _ => none

def less (a b : Value) : Except Stop Bool :=
  match a, b with
  | .text s, .text t => .ok (Bytes.before s t)
  | a, b => match a.number?, b.number? with
    | some x, some y => .ok (x < y)
    | _, _ => .error .meaningless

def atMost (a b : Value) : Except Stop Bool :=
  match a, b with
  | .text s, .text t => .ok (!Bytes.before t s)
  | a, b => match a.number?, b.number? with
    | some x, some y => .ok (x ≤ y)
    | _, _ => .error .meaningless

def same (a b : Value) : Bool :=
  match a, b with
  | .text s, .text t => s == t
  | .truth s, .truth t => s == t
  | .vector us, .vector vs => us == vs
  | .nothing, .nothing => true
  | a, b => match a.number?, b.number? with
    | some x, some y => x == y
    | _, _ => false

def compare (c : Comparison) (a b : Value) : Except Stop Value :=
  (match c with
    | .less => less a b
    | .greater => less b a
    | .lessEqual => atMost a b
    | .greaterEqual => atMost b a
    | .equal => .ok (same a b)
    | .notEqual => .ok (!same a b)).map .truth

end Value

mutual

/-- The value at `p`, functions being given by name. A function that is not called is nothing. -/
def Expr.evaluate (call : Bytes → List Value → Except Stop Value) (p : Value) :
    Expr → Except Stop Value
  | .whole n => .ok (.whole n)
  | .float v => .ok (.float v)
  | .text b => .ok (.text b)
  | .truth b => .ok (.truth b)
  | .nothing => .ok .nothing
  | .name n => .ok (if n == point then p else .nothing)
  | .call f args => do
    let vs ← Expr.evaluateAll call p args
    call f vs
  | .binary op l r => do
    let a ← l.evaluate call p
    let b ← r.evaluate call p
    call op.function [a, b]
  | .negate e => do
    let a ← e.evaluate call p
    call Builtin.neg.name [a]
  | .keep e => e.evaluate call p
  | .member e sel => do
    let a ← e.evaluate call p
    call Builtin.swizzle.name [a, .text sel]
  | .index e i => do
    let a ← e.evaluate call p
    let b ← i.evaluate call p
    a.element b
  | .compare c l r => do
    let a ← l.evaluate call p
    let b ← r.evaluate call p
    a.compare c b
  | .both l r => do
    match ← l.evaluate call p with
    | .truth true => r.evaluate call p
    | .truth false => .ok (.truth false)
    | _ => .error .meaningless
  | .either l r => do
    match ← l.evaluate call p with
    | .truth true => .ok (.truth true)
    | .truth false => r.evaluate call p
    | _ => .error .meaningless
  | .choose c l r => do
    match ← c.evaluate call p with
    | .truth true => l.evaluate call p
    | .truth false => r.evaluate call p
    | _ => .error .meaningless
  | .not e => do
    match ← e.evaluate call p with
    | .truth b => .ok (.truth !b)
    | _ => .error .meaningless
  | .invoke e args => do
    let _ ← Expr.evaluateAll call p args
    let _ ← e.evaluate call p
    .error .meaningless

def Expr.evaluateAll (call : Bytes → List Value → Except Stop Value) (p : Value) :
    List Expr → Except Stop (List Value)
  | [] => .ok []
  | e :: rest => do
    let v ← e.evaluate call p
    let vs ← Expr.evaluateAll call p rest
    .ok (v :: vs)

end

end DistanceField.Probe
