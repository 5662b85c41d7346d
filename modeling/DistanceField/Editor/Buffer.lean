import DistanceField.Editor.Wrap

/-! Editable text with a cursor. -/
namespace DistanceField.Editor

/-- Rows around a cursor: those above it, nearest first, the characters left of it, nearest first,
those right of it, and the rows below. `sticky` is the column that vertical moves aim at. -/
structure Buffer where
  above : List (List Char)
  left : List Char
  right : List Char
  below : List (List Char)
  sticky : Nat
deriving DecidableEq, Repr

inductive Edit where
  | left
  | right
  | up
  | down
  | home
  | final
  | enter
  | backspace
  | delete
  | insert (cs : List Char)
deriving DecidableEq, Repr

namespace Buffer

def empty : Buffer := ⟨[], [], [], [], 0⟩

def line (b : Buffer) : List Char := b.left.reverse ++ b.right

def rows (b : Buffer) : List (List Char) := b.above.reverse ++ b.line :: b.below

def value (b : Buffer) : Bytes := Bytes.join "\n" (b.rows.map Utf8.encode)

def place (b : Buffer) : Nat × Nat := (b.above.length, b.left.length)

def cursor (b : Buffer) : Nat :=
  total (b.above.map fun r => (Utf8.encode r).length + 1) + (Utf8.encode b.left.reverse).length

def isControl (c : Char) : Bool := c.toNat < 32 || (127 ≤ c.toNat && c.toNat < 160)

/-- What a character becomes when it is put in: line ends are line feeds, a tab is four spaces, and
other controls are dropped. -/
def clean (c : Char) : List Char :=
  if c == '\n' || c == '\r' then ['\n']
  else if c == '\t' then [' ', ' ', ' ', ' ']
  else if c == Utf8.replacement || isControl c then []
  else [c]

def put (b : Buffer) (c : Char) : Buffer :=
  if c == '\n' then { b with above := b.left.reverse :: b.above, left := [] }
  else { b with left := c :: b.left }

def insert (b : Buffer) (cs : List Char) : Buffer :=
  { (cs.flatMap clean).foldl put b with sticky := 0 }

def ofText (t : Bytes) : Buffer := empty.insert (Utf8.chars t)

def setColumn (b : Buffer) (n : Nat) : Buffer :=
  { b with left := (b.line.take n).reverse, right := b.line.drop n, sticky := 0 }

def moveLeft (b : Buffer) : Buffer :=
  match b.left, b.above with
  | c :: l, _ => { b with left := l, right := c :: b.right, sticky := 0 }
  | [], r :: rest => ⟨rest, r.reverse, [], b.right :: b.below, 0⟩
  | [], [] => b

def moveRight (b : Buffer) : Buffer :=
  match b.right, b.below with
  | c :: r, _ => { b with left := c :: b.left, right := r, sticky := 0 }
  | [], r :: rest => ⟨b.left.reverse :: b.above, [], r, rest, 0⟩
  | [], [] => b

/-- Goes right up to a number of columns, but not over `width` of them. -/
def splitAt (width target : Nat) : (left right : List Char) → (offset : Nat) → List Char × List Char
  | left, [], _ => (left, [])
  | left, c :: rest, offset =>
    if target ≤ offset || width ≤ offset then (left, c :: rest)
    else splitAt width target (c :: left) rest (offset + Width.ofChar c)

def spot (width : Nat) (b : Buffer) : Spot := .ofColumn width b.line b.left.length

/-- The line around a column of a row, at the column of the screen that a move aims at. -/
def onLine (width target : Nat) (above : List (List Char)) (row : List Char)
    (below : List (List Char)) (column : Int) : Buffer :=
  let s := Spot.ofColumn width row column
  let (l, r) := splitAt (s.columns - 1) target (row.take s.start).reverse (row.drop s.start) 0
  ⟨above, l, r, below, target⟩

def moveUp (width : Nat) (b : Buffer) : Buffer :=
  let s := b.spot width
  let target := max b.sticky s.offset
  match s.index, b.above with
  | 0, r :: rest => onLine width target rest r (b.line :: b.below) r.length
  | _, above => onLine width target above b.line b.below ((s.start : Int) - 2)

def moveDown (width : Nat) (b : Buffer) : Buffer :=
  let s := b.spot width
  let target := max b.sticky s.offset
  let within := onLine width target b.above b.line b.below
    (min (s.start + s.length + 2 : Int) (b.line.length - 1))
  match b.below with
  | r :: rest =>
    if s.index + 1 ≥ s.count then onLine width target (b.line :: b.above) r rest 0 else within
  | [] => within

def enter (b : Buffer) : Buffer := { b with above := b.left.reverse :: b.above, left := [] }

def backspace (b : Buffer) : Buffer :=
  match b.left, b.above with
  | _ :: l, _ => { b with left := l, sticky := 0 }
  | [], r :: rest => { b with above := rest, left := r.reverse }
  | [], [] => b

/-- The row below joins a row with nothing right of the cursor. -/
def join (b : Buffer) : Buffer :=
  match b.right, b.below with
  | [], r :: rest => { b with right := r, below := rest }
  | _, _ => b

def delete (b : Buffer) : Buffer := { b with right := b.right.drop 1 }.join

/-- `width` is how many columns the screen has for a row. -/
def apply (width : Nat) (b : Buffer) : Edit → Buffer
  | .left => b.moveLeft
  | .right => b.moveRight
  | .up => b.moveUp width
  | .down => b.moveDown width
  | .home => b.setColumn 0
  | .final => b.setColumn b.line.length
  | .enter => b.enter
  | .backspace => b.backspace
  | .delete => b.delete
  | .insert cs => b.insert cs

def erase (b : Buffer) : Nat → Buffer
  | 0 => b
  | n + 1 => b.backspace.erase n

end Buffer

def Edit.ofName? (name : String) : Option Edit :=
  if name == "left" then some .left
  else if name == "right" then some .right
  else if name == "up" then some .up
  else if name == "down" then some .down
  else if name == "home" then some .home
  else if name == "end" then some .final
  else if name == "enter" then some .enter
  else if name == "backspace" then some .backspace
  else if name == "delete" then some .delete
  else none

end DistanceField.Editor
