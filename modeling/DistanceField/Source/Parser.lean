import DistanceField.Number.Read
import DistanceField.Source.Lexer
import DistanceField.Source.Tree

/-! Reading a tree from tokens by recursive descent with one token of lookahead.

    document   := function+
    function   := IDENTIFIER [ '(' parameters ')' ] [ '{' operand* '}' ]
    parameters := [ IDENTIFIER '=' expression (',' IDENTIFIER '=' expression)* [','] ]
    expression := term (('+' | '-') term)*
    term       := factor (('*' | '/') factor)*
    factor     := ['+' | '-'] NUMBER | '(' expression ')' | function -/
namespace DistanceField

namespace Parser

/-- What is fixed during a run: whether a repeated parameter is an error, and the end of input
that is read behind the last token. -/
structure Setting where
  strict : Bool
  finish : Token

/-- The warnings of a step, and its result with the tokens that remain, or a complaint. -/
structure Outcome (α : Type) where
  warnings : List Warning
  result : Except Complaint (α × List Token)

namespace Outcome

variable {α β : Type}

def done (a : α) (ts : List Token) : Outcome α := ⟨[], .ok (a, ts)⟩

def fail (trouble : Trouble) (span : Interval) : Outcome α := ⟨[], .error ⟨trouble, span⟩⟩

def warn (w : Warning) (o : Outcome α) : Outcome α := ⟨w :: o.warnings, o.result⟩

def andThen (o : Outcome α) (next : α → List Token → Outcome β) : Outcome β :=
  match o.result with
  | .error c => ⟨o.warnings, .error c⟩
  | .ok (a, ts) =>
    let p := next a ts
    ⟨o.warnings ++ p.warnings, p.result⟩

end Outcome

open Outcome

def Setting.peek (s : Setting) (ts : List Token) : Token := ts.headD s.finish

def operator (op : Token) (l r : Node) : Node :=
  .operator op.kind l r ((l.span.union op.span).union r.span)

def signOf (k : Kind) : Float := if k == .minus then -1 else 1

/-- A number with its sign; text that is no number reads as zero or an infinity. -/
def number (s : Setting) (ts : List Token) : Outcome Node :=
  let t := s.peek ts
  let signed := t.kind == .plus || t.kind == .minus
  let rest := if signed then ts.tail else ts
  let n := s.peek rest
  if n.kind == .number then
    done (.number (signOf t.kind * (Read.double n.value).value) (t.span.union n.span)) rest.tail
  else fail (.unexpected n.kind) n.span

def assign (s : Setting) (f : Function) (name : Token) (value : Node) (ts : List Token) :
    Outcome Function :=
  let g := (f.assign name.value value).cover value.span
  if (f.param? name.value).isSome then
    let trouble := Trouble.duplicateParameter name.value f.name
    if s.strict then fail trouble name.span
    else warn ⟨trouble.message, name.span⟩ (done g ts)
  else done g ts

mutual

def function (s : Setting) : (fuel : Nat) → List Token → Outcome Function
  | 0, ts => fail .tooDeep (s.peek ts).span
  | n + 1, ts =>
    let t := s.peek ts
    if t.kind != .identifier then fail (.noFunctionName t.kind) t.span
    else
      let f := Function.mk t.value [] [] t.span
      let called :=
        if (s.peek ts.tail).kind == .lparen then parameters s n f ts.tail.tail
        else done f ts.tail
      called.andThen fun f ts =>
        if (s.peek ts).kind == .lbrace then operands s n f ts.tail else done f ts

def parameters (s : Setting) : (fuel : Nat) → Function → List Token → Outcome Function
  | 0, _, ts => fail .tooDeep (s.peek ts).span
  | n + 1, f, ts =>
    let t := s.peek ts
    let eq := s.peek ts.tail
    if t.kind == .rparen then done (f.cover t.span) ts.tail
    else if t.kind != .identifier then fail (.noParameterName t.kind) t.span
    else if eq.kind != .assign then fail (.noAssign eq.kind) eq.span
    else (expression s n ts.tail.tail).andThen fun e ts =>
      match e.function? with
      | some g => fail (.functionInParameter g.name) g.span
      | none => (assign s f t e ts).andThen fun f ts =>
        let sep := s.peek ts
        if sep.kind == .rparen then parameters s n f ts
        else if sep.kind == .comma then parameters s n f ts.tail
        else fail .noSeparator sep.span

def operands (s : Setting) : (fuel : Nat) → Function → List Token → Outcome Function
  | 0, _, ts => fail .tooDeep (s.peek ts).span
  | n + 1, f, ts =>
    let t := s.peek ts
    if t.kind == .rbrace then done (f.cover t.span) ts.tail
    else if t.kind == .eof then fail .noClosingBrace t.span
    else (expression s n ts).andThen fun e ts =>
      match e with
      | .function g =>
        if (s.peek ts).kind == .eof then fail .noClosingBrace (s.peek ts).span
        else operands s n ((f.addOperand g).cover g.span) ts
      | e => fail (.notGeometry e.describe) e.span

def expression (s : Setting) : (fuel : Nat) → List Token → Outcome Node
  | 0, ts => fail .tooDeep (s.peek ts).span
  | n + 1, ts => (term s n ts).andThen fun e ts => sumFrom s n e ts

def sumFrom (s : Setting) : (fuel : Nat) → Node → List Token → Outcome Node
  | 0, _, ts => fail .tooDeep (s.peek ts).span
  | n + 1, e, ts =>
    let op := s.peek ts
    if op.kind == .plus || op.kind == .minus then
      (term s n ts.tail).andThen fun r ts => sumFrom s n (operator op e r) ts
    else done e ts

def term (s : Setting) : (fuel : Nat) → List Token → Outcome Node
  | 0, ts => fail .tooDeep (s.peek ts).span
  | n + 1, ts => (factor s n ts).andThen fun e ts => productFrom s n e ts

def productFrom (s : Setting) : (fuel : Nat) → Node → List Token → Outcome Node
  | 0, _, ts => fail .tooDeep (s.peek ts).span
  | n + 1, e, ts =>
    let op := s.peek ts
    if op.kind == .star || op.kind == .slash then
      (factor s n ts.tail).andThen fun r ts => productFrom s n (operator op e r) ts
    else done e ts

def factor (s : Setting) : (fuel : Nat) → List Token → Outcome Node
  | 0, ts => fail .tooDeep (s.peek ts).span
  | n + 1, ts =>
    let t := s.peek ts
    match t.kind with
    | .number | .plus | .minus => number s ts
    | .lparen => (expression s n ts.tail).andThen fun e ts =>
      let close := s.peek ts
      if close.kind == .rparen then done e ts.tail else fail .noClosingParen close.span
    | .identifier => (function s n ts).andThen fun f ts => done (.function f) ts
    | k => fail (.unexpected k) t.span

end

def documentFrom (s : Setting) : (fuel : Nat) → Document → List Token → Outcome Document
  | 0, _, ts => fail .tooDeep (s.peek ts).span
  | n + 1, d, ts =>
    (function s n ts).andThen fun f ts =>
      let d := d.add f
      if (s.peek ts).kind == .eof then done d ts else documentFrom s n d ts

end Parser

def finishOf (ts : List Token) : Token :=
  Token.finish (match ts.getLast? with
    | some t => t.span.max
    | none => 0)

/-- The outcome of reading a document: its warnings, and the tree or a complaint. -/
structure Parsed where
  warnings : List Warning
  result : Except Complaint Document

/-- Each token is looked at by at most eight nested steps. -/
def parseTokens (strict : Bool) (ts : List Token) : Parsed :=
  let o := Parser.documentFrom ⟨strict, finishOf ts⟩ (8 * (ts.length + 1)) ⟨[], .none⟩ ts
  ⟨o.warnings, o.result.map (·.1)⟩

def parse (strict : Bool) (source : Bytes) : Parsed :=
  match scan source with
  | .error c => ⟨[], .error c⟩
  | .ok ts => parseTokens strict ts

end DistanceField
