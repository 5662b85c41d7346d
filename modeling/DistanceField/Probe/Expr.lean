import DistanceField.Probe.Builtin
import DistanceField.Probe.Token

/-! Expressions and how they are read. Each step gives what was read and the tokens behind it.

    expression := disjunct ('?' [expression] ':' expression)*
    disjunct   := conjunct ('||' conjunct)*
    conjunct   := comparison ('&&' comparison)*
    comparison := sum (relation sum)*
    sum        := product (('+' | '-') product)*
    product    := unary (('*' | '/') unary)*
    unary      := ('+' | '-') unary selection* | '!' product selection* | primary
    primary    := NUMBER | (TEXT | NAME | NAME arguments | '(' expression ')') selection*
    selection  := '.' NAME [arguments] | '[' expression ']'
    arguments  := '(' [expression (',' expression)* [',']] ')' -/
namespace DistanceField.Probe

inductive Operator where
  | add
  | sub
  | mul
  | div
deriving DecidableEq, Repr

def Operator.function : Operator → Bytes
  | add => Builtin.add.name
  | sub => Builtin.sub.name
  | mul => Builtin.mul.name
  | div => Builtin.div.name

inductive Comparison where
  | less
  | greater
  | lessEqual
  | greaterEqual
  | equal
  | notEqual
deriving DecidableEq, Repr

/-- Whether comparisons of this kind chain: `a < b < c` compares both pairs. -/
def Comparison.isOrder : Comparison → Bool
  | equal | notEqual => false
  | _ => true

inductive Expr where
  | whole (n : Nat)
  | float (v : Float)
  | text (b : Bytes)
  | truth (b : Bool)
  | nothing
  | name (n : Bytes)
  | call (f : Bytes) (args : List Expr)
  | binary (op : Operator) (l r : Expr)
  | negate (e : Expr)
  | keep (e : Expr)
  | member (e : Expr) (sel : Bytes)
  | index (e i : Expr)
  | compare (c : Comparison) (l r : Expr)
  | both (l r : Expr)
  | either (l r : Expr)
  | choose (c l r : Expr)
  | not (e : Expr)
  | invoke (e : Expr) (args : List Expr)

namespace Expr

def literal? : Expr → Option Bytes
  | text b => some b
  | keep e => e.literal?
  | _ => none

/-- An index that is spelled as a text selects components. -/
def at_ (e i : Expr) : Expr :=
  match i.literal? with
  | some sel => member e sel
  | none => index e i

mutual

def size : Expr → Nat
  | call _ args => 2 + sizes args
  | binary _ l r | compare _ l r | both l r | either l r | index l r => 1 + l.size + r.size
  | choose c l r => 1 + c.size + l.size + r.size
  | negate e | keep e | not e => 1 + e.size
  | member e _ => 2 + e.size
  | invoke e args => 1 + e.size + sizes args
  | _ => 1

def sizes : List Expr → Nat
  | [] => 0
  | e :: rest => e.size + sizes rest

end

end Expr

namespace Reader

def sumOperator? : List Token → Option (Operator × List Token)
  | .symbol .plus :: ts => some (.add, ts)
  | .symbol .minus :: ts => some (.sub, ts)
  | _ => none

def productOperator? : List Token → Option (Operator × List Token)
  | .symbol .star :: ts => some (.mul, ts)
  | .symbol .slash :: ts => some (.div, ts)
  | _ => none

def comparison? : List Token → Option (Comparison × List Token)
  | .symbol .less :: ts => some (.less, ts)
  | .symbol .greater :: ts => some (.greater, ts)
  | .symbol .lessEqual :: ts => some (.lessEqual, ts)
  | .symbol .greaterEqual :: ts => some (.greaterEqual, ts)
  | .symbol .equal :: ts => some (.equal, ts)
  | .symbol .notEqual :: ts => some (.notEqual, ts)
  | _ => none

def isCall : List Token → Bool
  | .symbol .lparen :: _ => true
  | _ => false

def constant? (n : Bytes) : Option Expr :=
  if n == Bytes.ofString "true" then some (.truth true)
  else if n == Bytes.ofString "false" then some (.truth false)
  else if n == Bytes.ofString "nil" then some .nothing
  else none

mutual

def expression : (fuel : Nat) → List Token → Option (Expr × List Token)
  | 0, _ => none
  | n + 1, ts => do
    let (c, ts) ← disjunct n ts
    choicesFrom n c ts

/-- Choices by a condition; without a first value the condition stands for it. -/
def choicesFrom : (fuel : Nat) → Expr → List Token → Option (Expr × List Token)
  | 0, _, _ => none
  | n + 1, c, ts =>
    match ts with
    | .symbol .question :: .symbol .colon :: ts => do
      let (r, ts) ← expression n ts
      choicesFrom n (.choose c c r) ts
    | .symbol .question :: ts => do
      let (l, ts) ← expression n ts
      match ts with
      | .symbol .colon :: ts =>
        let (r, ts) ← expression n ts
        choicesFrom n (.choose c l r) ts
      | _ => none
    | ts => some (c, ts)

def disjunct : (fuel : Nat) → List Token → Option (Expr × List Token)
  | 0, _ => none
  | n + 1, ts => do
    let (l, ts) ← conjunct n ts
    disjunctsFrom n l ts

def disjunctsFrom : (fuel : Nat) → Expr → List Token → Option (Expr × List Token)
  | 0, _, _ => none
  | n + 1, l, ts =>
    match ts with
    | .symbol .either :: ts => do
      let (r, ts) ← conjunct n ts
      disjunctsFrom n (.either l r) ts
    | ts => some (l, ts)

def conjunct : (fuel : Nat) → List Token → Option (Expr × List Token)
  | 0, _ => none
  | n + 1, ts => do
    let (l, ts) ← comparison n ts
    conjunctsFrom n l ts

def conjunctsFrom : (fuel : Nat) → Expr → List Token → Option (Expr × List Token)
  | 0, _, _ => none
  | n + 1, l, ts =>
    match ts with
    | .symbol .both :: ts => do
      let (r, ts) ← comparison n ts
      conjunctsFrom n (.both l r) ts
    | ts => some (l, ts)

def comparison : (fuel : Nat) → List Token → Option (Expr × List Token)
  | 0, _ => none
  | n + 1, ts => do
    let (l, ts) ← sum n ts
    comparisonsFrom n l ts

def comparisonsFrom : (fuel : Nat) → Expr → List Token → Option (Expr × List Token)
  | 0, _, _ => none
  | n + 1, l, ts =>
    match comparison? ts with
    | none => some (l, ts)
    | some (c, ts) => do
      let (r, ts) ← sum n ts
      if c.isOrder then
        let (e, ts) ← chainFrom n (.compare c l r) r ts
        comparisonsFrom n e ts
      else comparisonsFrom n (.compare c l r) ts

def chainFrom : (fuel : Nat) → Expr → Expr → List Token → Option (Expr × List Token)
  | 0, _, _, _ => none
  | n + 1, e, l, ts =>
    match comparison? ts with
    | some (c, rest) =>
      if c.isOrder then do
        let (r, ts) ← sum n rest
        chainFrom n (.both e (.compare c l r)) r ts
      else some (e, ts)
    | none => some (e, ts)

def sum : (fuel : Nat) → List Token → Option (Expr × List Token)
  | 0, _ => none
  | n + 1, ts => do
    let (l, ts) ← product n ts
    sumFrom n l ts

def sumFrom : (fuel : Nat) → Expr → List Token → Option (Expr × List Token)
  | 0, _, _ => none
  | n + 1, l, ts =>
    match sumOperator? ts with
    | none => some (l, ts)
    | some (op, ts) => do
      let (r, ts) ← product n ts
      sumFrom n (.binary op l r) ts

def product : (fuel : Nat) → List Token → Option (Expr × List Token)
  | 0, _ => none
  | n + 1, ts => do
    let (l, ts) ← unary n ts
    productFrom n l ts

def productFrom : (fuel : Nat) → Expr → List Token → Option (Expr × List Token)
  | 0, _, _ => none
  | n + 1, l, ts =>
    match productOperator? ts with
    | none => some (l, ts)
    | some (op, ts) => do
      let (r, ts) ← unary n ts
      productFrom n (.binary op l r) ts

def unary : (fuel : Nat) → List Token → Option (Expr × List Token)
  | 0, _ => none
  | n + 1, ts =>
    match ts with
    | .symbol .minus :: ts => do
      let (e, ts) ← unary n ts
      selections n (.negate e) ts
    | .symbol .plus :: ts => do
      let (e, ts) ← unary n ts
      selections n (.keep e) ts
    | .symbol .bang :: ts => do
      let (e, ts) ← product n ts
      selections n (.not e) ts
    | ts => primary n ts

def primary : (fuel : Nat) → List Token → Option (Expr × List Token)
  | 0, _ => none
  | n + 1, ts =>
    match ts with
    | .whole k :: ts => some (.whole k, ts)
    | .float v :: ts => some (.float v, ts)
    | .text b :: ts => selections n (.text b) ts
    | .symbol .lparen :: ts => do
      let (e, ts) ← expression n ts
      match ts with
      | .symbol .rparen :: ts => selections n e ts
      | _ => none
    | .name f :: ts =>
      match constant? f with
      | some e => selections n e ts
      | none =>
        if isCall ts then do
          let (args, ts) ← arguments n (ts.drop 1)
          selections n (.call f args) ts
        else selections n (.name f) ts
    | _ => none

def selections : (fuel : Nat) → Expr → List Token → Option (Expr × List Token)
  | 0, _, _ => none
  | n + 1, e, ts =>
    match ts with
    | .symbol .dot :: .name sel :: ts =>
      if isCall ts then do
        let (args, ts) ← arguments n (ts.drop 1)
        selections n (.invoke (.member e sel) args) ts
      else selections n (.member e sel) ts
    | .symbol .dot :: _ => none
    | .symbol .lbracket :: ts => do
      let (i, ts) ← expression n ts
      match ts with
      | .symbol .rbracket :: ts => selections n (e.at_ i) ts
      | _ => none
    | ts => some (e, ts)

def arguments : (fuel : Nat) → List Token → Option (List Expr × List Token)
  | 0, _ => none
  | n + 1, ts =>
    match ts with
    | .symbol .rparen :: ts => some ([], ts)
    | ts => do
      let (e, ts) ← expression n ts
      match ts with
      | .symbol .rparen :: ts => some ([e], ts)
      | .symbol .comma :: ts =>
        let (es, ts) ← arguments n ts
        some (e :: es, ts)
      | _ => none

end

end Reader

def Expr.limit : Nat := 10000

def Expr.read? (body : Bytes) : Option Expr := do
  let ts ← Token.scan? body
  match Reader.expression (12 * (ts.length + 1)) ts with
  | some (e, []) => if e.size ≤ limit then some e else none
  | _ => none

end DistanceField.Probe
