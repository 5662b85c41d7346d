import DistanceField.Probe.Expr

/-! What can be told of an expression before it is evaluated. -/
namespace DistanceField.Probe

/-- The kinds of values, as far as they are known beforehand; what a function returns is not. -/
inductive Kind where
  | whole
  | float
  | text
  | truth
  | vector
  | nothing
  | function
  | unknown
deriving DecidableEq, Repr

namespace Kind

def isNumber (k : Kind) : Bool := k == whole || k == float

def isOrdered (k : Kind) : Bool := k.isNumber || k == text

def ordered (a b : Kind) : Bool :=
  (a.isNumber && b.isNumber) || (a == text && b == text) || (a == unknown && b == unknown) ||
    (a == unknown && b.isOrdered) || (a.isOrdered && b == unknown)

def comparable (a b : Kind) : Bool :=
  a == unknown || b == unknown || a == b || (a.isNumber && b.isNumber) || a == nothing ||
    b == nothing

def isCondition (k : Kind) : Bool := k == truth || k == unknown

def oneOf (a b : Kind) : Kind :=
  if a == nothing then b
  else if b == nothing || a == b || b == unknown then a
  else unknown

end Kind

def point : Bytes := "p"

mutual

/-- The kind of an expression whose names are all known and whose operations can make sense. -/
def Expr.kind? (functions : List Bytes) : Expr → Option Kind
  | .whole _ => some .whole
  | .float _ => some .float
  | .text _ => some .text
  | .truth _ => some .truth
  | .nothing => some .nothing
  | .name n =>
    if n == point then some .vector
    else if functions.contains n then some .function
    else none
  | .call f args =>
    if f != point && functions.contains f && Expr.allKnown functions args then some .unknown
    else none
  | .binary _ l r => do
    let _ ← l.kind? functions
    let _ ← r.kind? functions
    some .unknown
  | .negate e => (e.kind? functions).map fun _ => .unknown
  | .keep e => e.kind? functions
  | .member e _ => (e.kind? functions).map fun _ => .unknown
  | .index e i => do
    let base ← e.kind? functions
    let at_ ← i.kind? functions
    if base == .unknown then some .unknown
    else if base == .vector && (at_ == .whole || at_ == .unknown) then some .float
    else none
  | .compare c l r => do
    let a ← l.kind? functions
    let b ← r.kind? functions
    if (if c.isOrder then a.ordered b else a.comparable b) then some .truth else none
  | .both l r | .either l r => do
    let a ← l.kind? functions
    let b ← r.kind? functions
    if a.isCondition && b.isCondition then some .truth else none
  | .choose c l r => do
    let condition ← c.kind? functions
    let a ← l.kind? functions
    let b ← r.kind? functions
    if condition.isCondition then some (a.oneOf b) else none
  | .not e => do
    let a ← e.kind? functions
    if a.isCondition then some .truth else none
  | .invoke e args => do
    let _ ← e.kind? functions
    if Expr.allKnown functions args then some .unknown else none

def Expr.allKnown (functions : List Bytes) : List Expr → Bool
  | [] => true
  | e :: rest => (e.kind? functions).isSome && Expr.allKnown functions rest

end

end DistanceField.Probe
