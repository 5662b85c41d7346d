import DistanceField.Yaml.Flaw
import DistanceField.Text.Utf8

/-! Tokens of a YAML stream, with the place at which each starts. -/
namespace DistanceField.Yaml

structure Place where
  line : Nat
  column : Nat
  deriving BEq

inductive Kind where
  | documentStart
  | documentEnd
  | directive
  | dash
  | question
  | colon
  | comma
  | listOpen
  | listClose
  | mapOpen
  | mapClose
  | anchor
  | reference
  | tag
  | blockHead
  | merge
  | quoted
  | plain
  | comment
  | refused
  deriving BEq

/-- `text` is what a scalar, a name or a tag says. `source` is the text it was read from, with the
blanks before it, and `index` its number in the stream. A plain scalar may stand for something other
than its text. -/
structure Token where
  kind : Kind
  text : Bytes
  source : List Char
  place : Place
  scalar : Scalar := .null
  index : Nat := 0
  /-- Why it was refused. -/
  flaw : Option Flaw := none

namespace Token

/-- A scalar that is a text whatever it looks like. -/
def verbatim (kind : Kind) (text : List Char) (source : List Char) (place : Place) : Token :=
  { kind, text := Utf8.encode text, source, place, scalar := .text (Utf8.encode text) }

def plain (text source : List Char) (place : Place) : Token :=
  { kind := .plain, text := Utf8.encode text, source, place
    scalar := Scalar.ofPlain (Utf8.encode text) }

def isScalar (t : Token) : Bool := t.kind == .plain || t.kind == .quoted

/-- A plain or quoted text, as opposed to a number, a switch or nothing. -/
def isText (t : Token) : Bool := t.isScalar && t.scalar.isText

end Token

structure Problem where
  flaw : Flaw
  token : Option Token

def problem {α : Type} (flaw : Flaw) (token : Token) : Except Problem α :=
  .error ⟨flaw, some token⟩

def scalarTags : List String :=
  ["!!int", "!!float", "!!str", "!!binary", "!!timestamp", "!!bool", "!!null"]

def knownTags : List String :=
  scalarTags ++ ["!!seq", "!!map", "!!omap", "!!set", "!!merge"]

end DistanceField.Yaml
