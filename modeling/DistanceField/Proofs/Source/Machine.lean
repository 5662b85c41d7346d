import DistanceField.Source.Parser

/-! The parser as a machine: a cursor that goes over the tokens one by one, and loops that run for as long
as they find something to read. The procedures call each other to a depth that is given; where that is
passed there is no outcome. So a run that ends is one that ends at some depth. -/
namespace DistanceField

/-- A parser: what it reads, the token it looks at, how often it has advanced since it was started, and
the warnings it has recorded. -/
structure Machine where
  tokens : List Token
  strict : Bool
  tok : Token
  pos : Nat
  warnings : List Warning

namespace Machine

/-- A step need not end. When it does, it has returned or failed, and has left the machine somewhere. -/
abbrev Step := ExceptT Complaint (StateT Machine Option)

/-- One token further; behind the last one stands the end of input. -/
def advanced (p : Machine) : Machine :=
  { p with tok := p.tokens.getD p.pos (finishOf p.tokens), pos := p.pos + 1 }

def warned (p : Machine) (w : Warning) : Machine := { p with warnings := p.warnings ++ [w] }

def started (p : Machine) : Machine := advanced { p with pos := 0, warnings := [] }

section Steps

variable {α : Type}

def look : Step Token := do return (← get).tok

def advance : Step Unit := modify advanced

def fail (trouble : Trouble) (span : Interval) : Step α := throw ⟨trouble, span⟩

/-- A step that does not end. -/
def endless : Step α := fun _ => none

end Steps

def number : Step Node := do
  let t ← look
  if t.kind == .plus || t.kind == .minus then advance
  let n ← look
  if n.kind == .number then
    advance
    return .number (Parser.signOf t.kind * (Read.double n.value).value) (t.span.union n.span)
  else fail (.unexpected n.kind) n.span

def assign (f : Function) (name : Token) (value : Node) : Step Function := do
  let g := (f.assign name.value value).cover value.span
  if (f.param? name.value).isSome then
    let trouble := Trouble.duplicateParameter name.value f.name
    if (← get).strict then fail trouble name.span
    else
      modify fun p => p.warned ⟨trouble.message, name.span⟩
      return g
  else return g

/-! The rounds of the loops, each with the procedures that it calls. -/

def parameter (expression : Step Node) (f : Function) : Step Function := do
  let name ← look
  if name.kind != .identifier then fail (.noParameterName name.kind) name.span
  else
    advance
    let eq ← look
    if eq.kind != .assign then fail (.noAssign eq.kind) eq.span
    else
      advance
      let e ← expression
      match e.function? with
      | some g => fail (.functionInParameter g.name) g.span
      | none =>
        let g ← assign f name e
        let sep ← look
        if sep.kind == .rparen then return g
        else if sep.kind == .comma then
          advance
          return g
        else fail .noSeparator sep.span

def operand (expression : Step Node) (f : Function) : Step Function := do
  let t ← look
  if t.kind == .eof then fail .noClosingBrace t.span
  else
    let e ← expression
    match e with
    | .function g =>
      let t ← look
      if t.kind == .eof then fail .noClosingBrace t.span
      else return (f.addOperand g).cover g.span
    | e => fail (.notGeometry e.describe) e.span

def joined (item : Step Node) (e : Node) : Step Node := do
  let op ← look
  advance
  let r ← item
  return Parser.operator op e r

def piece (function : Step Function) (d : Document) : Step Document := do
  let f ← function
  return d.add f

/-! The loops, which do one round and go on. -/

def list (close : Kind) (round again : Function → Step Function) (f : Function) : Step Function := do
  let t ← look
  if t.kind == close then
    advance
    return f.cover t.span
  else
    let g ← round f
    again g

def chain (among : Kind → Bool) (round again : Node → Step Node) (e : Node) : Step Node := do
  let op ← look
  if among op.kind then
    let e ← round e
    again e
  else return e

def bracketed (kind : Kind) (inside : Function → Step Function) (f : Function) : Step Function := do
  if (← look).kind == kind then
    advance
    inside f
  else return f

mutual

def function : Nat → Step Function
  | 0 => endless
  | n + 1 => do
    let t ← look
    if t.kind != .identifier then fail (.noFunctionName t.kind) t.span
    else
      advance
      let f ← bracketed .lparen (parameters n) (.mk t.value [] [] t.span)
      bracketed .lbrace (operands n) f

def parameters : Nat → Function → Step Function
  | 0, _ => endless
  | n + 1, f => list .rparen (parameter (expression n)) (parameters n) f

def operands : Nat → Function → Step Function
  | 0, _ => endless
  | n + 1, f => list .rbrace (operand (expression n)) (operands n) f

def expression : Nat → Step Node
  | 0 => endless
  | n + 1 => do
    let e ← term n
    sums n e

def sums : Nat → Node → Step Node
  | 0, _ => endless
  | n + 1, e => chain (fun k => k == .plus || k == .minus) (joined (term n)) (sums n) e

def term : Nat → Step Node
  | 0 => endless
  | n + 1 => do
    let e ← factor n
    products n e

def products : Nat → Node → Step Node
  | 0, _ => endless
  | n + 1, e => chain (fun k => k == .star || k == .slash) (joined (factor n)) (products n) e

def factor : Nat → Step Node
  | 0 => endless
  | n + 1 => do
    let t ← look
    match t.kind with
    | .number | .plus | .minus => number
    | .lparen =>
      advance
      let e ← expression n
      let close ← look
      if close.kind == .rparen then
        advance
        return e
      else fail .noClosingParen close.span
    | .identifier =>
      let f ← function n
      return .function f
    | k => fail (.unexpected k) t.span

end

def document : Nat → Document → Step Document
  | 0, _ => endless
  | n + 1, d => do
    let d ← piece (function n) d
    if (← look).kind == .eof then return d
    else document n d

def parse (n : Nat) : Step Document := do
  modify started
  document n ⟨[], .none⟩

end Machine

end DistanceField
