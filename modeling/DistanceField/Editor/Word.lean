import DistanceField.Solid.Shape
import DistanceField.Source.Token
import DistanceField.Text.Alphabet
import DistanceField.Text.Letter

/-! What a cursor in an unfinished source text points at: the word around it, and the parameter
list it stands in. -/
namespace DistanceField.Editor

def isDelimiter (b : UInt8) : Bool := Bytes.isBlank b || (Kind.ofByte? b).isSome

/-- A cursor outside the text stands at its nearer end. -/
def clampCursor (input : Bytes) (cursor : Int) : Nat := min (max cursor 0).toNat input.length

def isBoundary (c : Char) : Bool := c.toNat < 128 && isDelimiter c.toNat.toUInt8

/-- How many bytes are passed up to a delimiter, character by character as `read` finds them. -/
def passed (read : Bytes → Char × Nat × Bool) : Bytes → Nat
  | [] => 0
  | b :: rest =>
    let (c, n, _) := read (b :: rest)
    if isBoundary c then 0 else n + passed read (rest.drop (n - 1))
termination_by b => b.length
decreasing_by simp only [List.length_drop, List.length_cons]; omega

/-- The word around the cursor: where it starts and where it ends. From the cursor, characters are
read backwards and onwards up to a delimiter. -/
def wordBounds (input : Bytes) (cursor : Int) : Nat × Nat :=
  let c := clampCursor input cursor
  (c - passed Utf8.last (input.take c).reverse, c + passed Utf8.first (input.drop c))

def slice (input : Bytes) (bounds : Nat × Nat) : Bytes := (input.take bounds.2).drop bounds.1

/-- The parameter list around a cursor: whose it is, which argument of it, the name of that
argument as far as it is there, and whether the cursor is behind its equals sign. -/
structure Call where
  name : Bytes
  param : Bytes
  index : Nat
  inValue : Bool
deriving DecidableEq, Repr

/-- What stands before the innermost parenthesis that is open at the end of a text, which is
given backwards. Braces end the search. -/
def beforeOpen? (depth : Nat) : Bytes → Option Bytes
  | [] => none
  | b :: rest =>
    if b == 41 then beforeOpen? (depth + 1) rest
    else if b == 40 then
      match depth with
      | 0 => some rest
      | d + 1 => beforeOpen? d rest
    else if b == 123 || b == 125 then none
    else beforeOpen? depth rest

def isNamePiece (p : Char × Bytes × Bool) : Bool := Alphabet.isAlphanumeric p.1 || p.1 == '_'

def isBlankPiece (p : Char × Bytes × Bool) : Bool := Letter.isSpace p.1

def nameBefore (before : Bytes) : Bytes :=
  let ps := (Utf8.pieces before).reverse.dropWhile isBlankPiece
  (ps.takeWhile isNamePiece).reverse.flatMap (·.2.1)

/-- How many arguments a text holds before its last one, and that one backwards. -/
def lastArgument (depth : Int) (index : Nat) (arg : Bytes) : Bytes → Nat × Bytes
  | [] => (index, arg)
  | b :: rest =>
    if b == 44 && depth == 0 then lastArgument depth (index + 1) [] rest
    else
      let d := if b == 40 then depth + 1 else if b == 41 then depth - 1 else depth
      lastArgument d index (b :: arg) rest

def callAt? (input : Bytes) (cursor : Int) : Option Call := do
  let before := input.take (clampCursor input cursor)
  let rest ← beforeOpen? 0 before.reverse
  let name := nameBefore rest.reverse
  if name.isEmpty then none
  else
    let (index, arg) := lastArgument 0 0 [] (before.drop (rest.length + 1))
    let arg := arg.reverse
    let param := arg.takeWhile (· != 61)
    some ⟨name, Letter.trim param, index, param.length < arg.length⟩

def shapeNames : List Bytes := Bytes.sorted Shape.names

def schema? (name : Bytes) : Option Schema :=
  if shapeNames.contains name then some (Schema.ofShape (Shape.ofName name)) else none

/-- What may complete the word that starts at an offset: the parameters of a known shape, nothing
inside a value, and the names of shapes elsewhere. -/
def candidates (input : Bytes) (start : Int) : List Bytes :=
  match callAt? input start with
  | none => shapeNames
  | some c =>
    if c.inValue then []
    else match schema? c.name with
      | some s => s.params.map (·.name)
      | none => []

end DistanceField.Editor
