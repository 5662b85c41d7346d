import DistanceField.Yaml.Node

/-! What is said about a flaw: its place, its message, and the lines around it with a caret below
the token that shows it. -/
namespace DistanceField.Yaml

def Excerpt.margin : Nat := 3

namespace Excerpt

def dropBreaks (cs : List Char) : List Char := cs.dropWhile isBreak

/-- Without the spaces at the end, and then without line breaks there. -/
def dropTail (cs : List Char) : List Char :=
  ((cs.reverse.dropWhile (· == ' ')).dropWhile isBreak).reverse

def lastLine (t : Token) : Nat :=
  let ended := match t.source.reverse.dropWhile (· == ' ') with
    | c :: _ => isBreak c
    | [] => false
  t.place.line + breaks (dropBreaks t.source) - (if ended then 1 else 0)

def header (current line : Nat) : List Char :=
  let digits := (Nat.toDigits 10 line)
  let number := List.replicate (2 - digits.length) ' ' ++ digits
  (if line == current then ['>', ' '] else [' ', ' ']) ++ number ++ [' ', '|', ' ']

def numbered (current : Nat) : Nat → List Char → List Char
  | _, [] => []
  | line, '\n' :: cs => '\n' :: header current (line + 1) ++ numbered current (line + 1) cs
  | line, c :: cs => c :: numbered current line cs

def print (current : Nat) (ts : List Token) : List Char :=
  match ts with
  | [] => []
  | t :: _ =>
    header current t.place.line ++ numbered current t.place.line (ts.flatMap Token.source)

/-- The first token of the lines above, in front of which the spaces of the one before it stand. -/
def firstAbove (earlier : List Token) (t : Token) : Token :=
  let spaces := match earlier.getLast? with
    | some u => (u.source.reverse.takeWhile (· == ' '))
    | none => []
  { t with source := dropBreaks (spaces ++ t.source) }

/-- Moves what is cut off the end of the lines above to the lines below. -/
def splitTail (above below : List Token) : List Token × List Token :=
  match above.reverse with
  | [] => ([], below)
  | t :: rest =>
    let kept := dropTail t.source
    let cut := t.source.drop kept.length
    let cut := if cut.length ≤ 1 then [] else match cut with
      | c :: cs => if isBreak c then cs else c :: cs
      | [] => []
    (({ t with source := kept } :: rest).reverse, match below with
      | u :: more => { u with source := cut ++ u.source } :: more
      | [] => [])

def around (ts : List Token) (t : Token) : List Token × List Token :=
  let last := lastLine t
  let least := max (t.place.line - margin) 1
  let before := ts.take t.index
  let near := before.reverse.takeWhile fun u => u.place.line ≥ least
  let start := before.length - near.length
  match ts.drop start with
  | [] => ([], [])
  | first :: rest =>
    let more := rest.takeWhile fun u => u.place.line ≤ last
    let above := firstAbove (ts.take start) first :: more
    let (above, below) := splitTail above (rest.drop more.length)
    (above, match below.takeWhile fun u => u.place.line ≤ last + margin with
      | u :: us => { u with source := dropBreaks u.source } :: us
      | [] => [])

def lines (ts : List Token) (t : Token) : List Char :=
  let (above, below) := around ts t
  let current := t.place.line
  let caret := List.replicate ((header current current).length + t.place.column - 1) ' ' ++ ['^']
  print current above ++ '\n' :: caret ++ '\n' :: print current below

end Excerpt

def Problem.text (ts : List Token) (p : Problem) : Bytes :=
  match p.token with
  | none => p.flaw.message
  | some t =>
    let place := "[" ++ Bytes.ofNat t.place.line ++ ":" ++ Bytes.ofNat t.place.column ++ "]"
    place ++ " " ++ p.flaw.message ++ "\n" ++ Utf8.encode (Excerpt.lines ts t)

end DistanceField.Yaml
