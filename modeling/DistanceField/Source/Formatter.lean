import DistanceField.Source.Tree

/-! Writing a tree back as source text, with no more parentheses than its grouping needs. -/
namespace DistanceField

namespace Formatter

/-- A digit run that is too large for a double, and reads as infinity. -/
def overflow : Bytes := 49 :: List.replicate 309 48

/-- A number as the scanner accepts it; not-a-number has no such form and is written as zero. -/
def number (v : Float) : Bytes :=
  match Double.view v with
  | .nan => [48]
  | .infinite negative => Decimal.signed negative overflow
  | .finite negative m e => Decimal.signed negative (Decimal.shortest m e).positional

def precedence (op : Kind) : Nat := if op == .star || op == .slash then 2 else 1

def precedence? : Node → Option Nat
  | .operator op _ _ _ => some (precedence op)
  | _ => none

def parens (b : Bytes) : Bytes := "(" ++ b ++ ")"

def parensIf (c : Bool) (b : Bytes) : Bytes := if c then parens b else b

/-- Whether an operand needs parentheses under an operator of the given precedence: on the left
when it binds looser, on the right also when it binds equally. -/
def looser (n : Node) (prec : Nat) : Bool := (precedence? n).any (· < prec)

def notTighter (n : Node) (prec : Nat) : Bool := (precedence? n).any (· ≤ prec)

/-- How operands are set apart: each on its own line, indented by depth, or all on one line. -/
def separator (indent : Int) (depth : Nat) : Bytes :=
  if indent > 0 then 10 :: Bytes.spaces (depth * indent.toNat) else [32]

mutual

def expr : Node → Bytes
  | .number v _ => number v
  | .operator op l r _ =>
    let prec := precedence op
    parensIf (looser l prec) (expr l) ++ " " ++ op.name ++ " " ++
      parensIf (notTighter r prec) (expr r)
  | .function f => function 0 0 f
  | n => n.describe

def function (indent : Int) (depth : Nat) : Function → Bytes
  | .mk name params operands _ =>
    let arguments := if params.isEmpty then [] else parens (parameters params)
    let body : Bytes :=
      if operands.isEmpty then []
      else " \x7b" ++ functions indent (depth + 1) operands ++ separator indent depth ++ "\x7d"
    name ++ arguments ++ body

def parameters : List (Bytes × Node) → Bytes
  | [] => []
  | [(name, value)] => name ++ "=" ++ expr value
  | (name, value) :: rest => name ++ "=" ++ expr value ++ ", " ++ parameters rest

def functions (indent : Int) (depth : Nat) : List Function → Bytes
  | [] => []
  | f :: rest => separator indent depth ++ function indent depth f ++ functions indent depth rest

end

def topLevel (indent : Int) : List Function → Bytes
  | [] => []
  | [f] => function indent 0 f
  | f :: rest => function indent 0 f ++ separator indent 0 ++ topLevel indent rest

end Formatter

/-- An expression with the fewest parentheses that keep its grouping. -/
def Node.format (n : Node) : Bytes := Formatter.expr n

/-- The document in canonical form: operands on lines of their own for a positive indent, else
all on one line. -/
def Document.format (indent : Int) (d : Document) : Bytes :=
  Formatter.topLevel indent d.operands ++ "\n"

end DistanceField
