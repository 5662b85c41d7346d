import DistanceField.Source.Interval

/-! Lexical units. -/
namespace DistanceField

inductive Kind where
  | eof
  | number
  | identifier
  | plus
  | minus
  | star
  | slash
  | comma
  | lparen
  | rparen
  | lbrace
  | rbrace
  | assign
  | other (code : Int)
deriving DecidableEq, Repr

namespace Kind

def known : List Kind :=
  [eof, number, identifier, plus, minus, star, slash, comma, lparen, rparen, lbrace, rbrace, assign]

def ofCode (n : Int) : Kind :=
  if n < 0 then other n else known.getD n.toNat (other n)

def code : Kind → Int
  | eof => 0
  | number => 1
  | identifier => 2
  | plus => 3
  | minus => 4
  | star => 5
  | slash => 6
  | comma => 7
  | lparen => 8
  | rparen => 9
  | lbrace => 10
  | rbrace => 11
  | assign => 12
  | other n => n

def name : Kind → Bytes
  | eof => "EOF"
  | number => "NUMBER"
  | identifier => "IDENTIFIER"
  | plus => "+"
  | minus => "-"
  | star => "*"
  | slash => "/"
  | comma => ","
  | lparen => "("
  | rparen => ")"
  | lbrace => "\x7b"
  | rbrace => "\x7d"
  | assign => "="
  | other n => "Kind(" ++ Bytes.ofInt n ++ ")"

def ofByte? (b : UInt8) : Option Kind :=
  if b == 43 then some plus
  else if b == 45 then some minus
  else if b == 42 then some star
  else if b == 47 then some slash
  else if b == 44 then some comma
  else if b == 40 then some lparen
  else if b == 41 then some rparen
  else if b == 123 then some lbrace
  else if b == 125 then some rbrace
  else if b == 61 then some assign
  else none

end Kind

structure Token where
  kind : Kind
  value : Bytes
  span : Interval
deriving DecidableEq, Repr

def Token.finish (pos : Int) : Token := ⟨.eof, [], ⟨pos, pos⟩⟩

def Token.describe (t : Token) : Bytes :=
  match t.kind with
  | .number | .identifier => t.kind.name ++ "(" ++ t.value ++ ")"
  | k => k.name

end DistanceField
