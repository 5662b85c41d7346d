import DistanceField.Text.Quoted
import DistanceField.Source.Token

/-! What can be wrong with a source text, and how it is worded. -/
namespace DistanceField

inductive Trouble where
  | unknownCharacter (c : Char)
  | bareDot
  | noFunctionName (got : Kind)
  | noParameterName (got : Kind)
  | noAssign (got : Kind)
  | functionInParameter (name : Bytes)
  | duplicateParameter (name owner : Bytes)
  | noSeparator
  | noClosingBrace
  | notGeometry (what : Bytes)
  | noClosingParen
  | unexpected (got : Kind)
  | tooDeep
deriving DecidableEq, Repr

namespace Trouble

def isLexical : Trouble → Bool
  | unknownCharacter _ | bareDot => true
  | _ => false

def message : Trouble → Bytes
  | unknownCharacter c => "unknown character " ++ Quoted.quote (Bytes.ofChar c)
  | bareDot => "expecting more digits after ."
  | noFunctionName k => "expecting function name, got " ++ k.name ++ " instead"
  | noParameterName k => "expecting parameter name, got " ++ k.name ++ " instead"
  | noAssign k => "expecting = after parameter name, got " ++ k.name ++ " instead"
  | functionInParameter f => "parameter expression must be arithmetic, found function " ++ f
  | duplicateParameter p f => "duplicate parameter " ++ Quoted.quote p ++ " in " ++ f
  | noSeparator => "expecting closing ) or , argument separator"
  | noClosingBrace => "expecting closing \x7d"
  | notGeometry what =>
    "all operands of geometry functions should be geometry functions, this one is " ++ what
  | noClosingParen => "expecting closing )"
  | unexpected k => "unexpected token: " ++ k.name
  | tooDeep => "nested too deeply"

end Trouble

structure Complaint where
  trouble : Trouble
  span : Interval
deriving DecidableEq, Repr

structure Warning where
  message : Bytes
  span : Interval
deriving DecidableEq, Repr

end DistanceField
