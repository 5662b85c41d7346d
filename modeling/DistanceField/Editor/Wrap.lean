import DistanceField.Text.Letter
import DistanceField.Text.Width

/-! Rows that are too long for the screen are drawn on several lines, which vertical moves go
through one by one. Lines are broken behind blanks, and inside a word that is too long. -/
namespace DistanceField.Editor

structure Extent where
  length : Nat
  columns : Nat
deriving DecidableEq, Repr

namespace Extent

def zero : Extent := ⟨0, 0⟩

def space : Extent := ⟨1, 1⟩

def ofChar (c : Char) : Extent := ⟨1, if Letter.isSpace c then 1 else Width.ofChar c⟩

def add (a b : Extent) : Extent := ⟨a.length + b.length, a.columns + b.columns⟩

def ofChars (cs : List Char) : Extent := cs.foldl (fun e c => e.add (.ofChar c)) zero

end Extent

/-- A row being broken: the lines that are full, the last one first, the line being filled, and the
word that is not on a line yet. -/
structure Fill where
  full : List Extent := []
  line : Extent := .zero
  word : Extent := .zero

namespace Fill

def put (width : Nat) (f : Fill) (c : Char) : Fill :=
  if Letter.isSpace c then
    let word := f.word.add .space
    if f.line.columns + word.columns > width then ⟨f.line :: f.full, word, .zero⟩
    else ⟨f.full, f.line.add word, .zero⟩
  else
    let word := f.word.add (.ofChar c)
    if word.columns + Width.ofChar c ≤ width then { f with word }
    else if f.line.length > 0 then ⟨f.line :: f.full, word, .zero⟩
    else ⟨f.full, word, .zero⟩

/-- All lines; a space for the cursor stands behind the last one. -/
def finish (width : Nat) (f : Fill) : List Extent :=
  let word := f.word.add .space
  let last := if f.line.columns + f.word.columns ≥ width then [f.line, word] else [f.line.add word]
  f.full.reverse ++ last

end Fill

def drawn (width : Nat) (row : List Char) : List Extent :=
  (row.foldl (Fill.put width) {}).finish width

/-- A place on the lines of a row: which of the `count` lines it is on, where that starts, how long
and how wide it is, and how many columns are left of the place. -/
structure Spot where
  index : Nat
  count : Nat
  start : Nat
  length : Nat
  columns : Nat
  offset : Nat
deriving DecidableEq, Repr

namespace Spot

/-- The place of a column among lines, of which `index` with `start` characters went before. Behind
the end of a line it is at the start of the next. -/
def find (count : Nat) (row : List Char) (column : Int) : (index start : Nat) → List Extent → Spot
  | _, _, [] => ⟨0, 0, 0, 0, 0, 0⟩
  | index, start, line :: rest =>
    let stop := start + line.length
    match rest with
    | next :: _ =>
      if column == stop then ⟨index + 1, count, stop, next.length, line.columns, 0⟩
      else if column ≤ stop then inside index start line
      else find count row column (index + 1) stop rest
    | [] => if column ≤ stop then inside index start line else ⟨0, 0, 0, 0, 0, 0⟩
where
  inside (index start : Nat) (line : Extent) : Spot :=
    let left := (row.drop start).take (column - start).toNat
    ⟨index, count, start, line.length, line.columns, (Extent.ofChars left).columns⟩

def ofColumn (width : Nat) (row : List Char) (column : Int) : Spot :=
  let lines := drawn width row
  find lines.length row column 0 0 lines

end Spot

end DistanceField.Editor
