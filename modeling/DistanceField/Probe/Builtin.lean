import DistanceField.Probe.Value

/-! The functions that expressions can call without defining them. Operators stand for some of
them. -/
namespace DistanceField.Probe

/-- The lesser of two doubles: not a number wins, except against minus infinity, and minus zero
lies below zero. -/
def least (x y : Float) : Float :=
  if x == -Double.infinity || y == -Double.infinity then -Double.infinity
  else if x.isNaN || y.isNaN then Double.nan
  else if x == 0 && y == 0 then (if Double.isNegative x then x else y)
  else if x < y then x else y

/-- The greater of two doubles: not a number wins, except against infinity. -/
def greatest (x y : Float) : Float :=
  if x == Double.infinity || y == Double.infinity then Double.infinity
  else if x.isNaN || y.isNaN then Double.nan
  else if x == 0 && y == 0 then (if Double.isNegative x then y else x)
  else if x > y then x else y

inductive Builtin where
  | float
  | vec3
  | add
  | sub
  | mul
  | div
  | min
  | max
  | neg
  | abs
  | dot
  | length
  | distance
  | normalize
  | swizzle
deriving DecidableEq, Repr

namespace Builtin

def all : List Builtin :=
  [float, vec3, add, sub, mul, div, min, max, neg, abs, dot, length, distance, normalize, swizzle]

def name : Builtin → Bytes
  | float => "float"
  | vec3 => "vec3"
  | add => "add"
  | sub => "sub"
  | mul => "mul"
  | div => "div"
  | min => "min"
  | max => "max"
  | neg => "neg"
  | abs => "abs"
  | dot => "dot"
  | length => "length"
  | distance => "distance"
  | normalize => "normalize"
  | swizzle => "swizzle"

def ofName? (n : Bytes) : Option Builtin := all.find? fun b => b.name == n

def one (args : List Value) (k : Value → Except Stop Value) : Except Stop Value :=
  match args with
  | [a] => k a
  | as => .error (.mismatch (.arity 1 as.length))

def two (args : List Value) (k : Value → Value → Except Stop Value) : Except Stop Value :=
  match args with
  | [a, b] => k a b
  | as => .error (.mismatch (.arity 2 as.length))

def onEach (f : Float → Float) : Value → Except Stop Value
  | .vector cs => .ok (.vector (cs.map f))
  | v => v.scalar.map fun x => .float (f x)

/-- By component; a number is taken for each component of the other operand. -/
def lift (f : Float → Float → Float) : Value → Value → Except Stop Value
  | .vector us, .vector vs =>
    if us.length == vs.length then .ok (.vector (us.zipWith f vs))
    else .error (.mismatch (.sizes us.length vs.length))
  | .vector us, b => b.scalar.map fun y => .vector (us.map fun x => f x y)
  | a, .vector vs => a.scalar.map fun x => .vector (vs.map fun y => f x y)
  | a, b => do
    let x ← a.scalar
    let y ← b.scalar
    .ok (.float (f x y))

def inner (us vs : List Float) : Float := (us.zipWith (· * ·) vs).foldl (· + ·) 0

def norm (us : List Float) : Float := (inner us us).sqrt

def pair (a b : Value) : Except Stop (List Float × List Float) := do
  let u ← a.components
  let v ← b.components
  if u.length == v.length then .ok (u, v) else .error (.mismatch (.sizes u.length v.length))

def component? (c : UInt8) : Option Nat :=
  if c == 120 || c == 114 then some 0
  else if c == 121 || c == 103 then some 1
  else if c == 122 || c == 98 then some 2
  else if c == 119 || c == 97 then some 3
  else none

/-- The components named by one to four letters; one letter gives a number. -/
def select (us : List Float) (sel : Bytes) : Except Stop Value :=
  if sel.isEmpty || sel.length > 4 then .error (.mismatch (.swizzle sel))
  else match sel.mapM fun c => (component? c).bind fun k => us[k]? with
    | none => .error (.mismatch (.swizzleSize sel us.length))
    | some [x] => .ok (.float x)
    | some xs => .ok (.vector xs)

def apply : Builtin → List Value → Except Stop Value
  | float, as => one as fun v => v.scalar.map .float
  | vec3, [a, b, c] => do
    let x ← a.scalar
    let y ← b.scalar
    let z ← c.scalar
    .ok (.vector [x, y, z])
  | vec3, as => .error (.mismatch (.vectorArity as.length))
  | add, as => two as (lift (· + ·))
  | sub, as => two as (lift (· - ·))
  | mul, as => two as (lift (· * ·))
  | div, as => two as (lift (· / ·))
  | min, as => two as (lift least)
  | max, as => two as (lift greatest)
  | neg, as => one as (onEach fun x => -x)
  | abs, as => one as (onEach Float.abs)
  | dot, as => two as fun a b => (pair a b).map fun (u, v) => .float (inner u v)
  | length, as => one as fun a => a.components.map fun u => .float (norm u)
  | distance, as => two as fun a b =>
    (pair a b).map fun (u, v) => .float (norm (u.zipWith (· - ·) v))
  | normalize, as => one as fun a =>
    a.components.map fun u => .vector (u.map (· / norm u))
  | swizzle, as => two as fun a b => do
    let u ← a.components
    match b with
    | .text sel => select u sel
    | b => .error (.mismatch (.selector b.kind))

end Builtin

end DistanceField.Probe
