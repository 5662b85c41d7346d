import DistanceField.Text.Letter

/-! Ranking names by how well a few letters, in their order, stand for them. -/
namespace DistanceField.Editor

structure Match where
  name : Bytes
  index : Nat
  score : Int
  matched : List Nat
deriving DecidableEq, Repr

namespace Fuzzy

def sameLetter (a b : Char) : Bool := Letter.fold a == Letter.fold b

def isSeparator (c : Char) : Bool := ['/', '-', '_', ' ', '.', '\\'].contains c

/-- How far a name was searched: what is left of the pattern, the best place for its first letter
with the score of it, the places taken so far (last first), and the bonus for adjacent ones. -/
structure Search where
  pattern : List Char
  best : Int := -1
  place : Option Nat := none
  taken : List Nat := []
  total : Int := 0
  adjacent : Int := 0

/-- The score of a letter at offset `j` behind `last`, and the bonus it adds for adjacency. -/
def letterScore (s : Search) (j : Nat) (last : Option (Char × Nat)) (c : Char) : Int × Int :=
  let first : Int := if j == 0 then 10 else 0
  let camel : Int := match last with
    | some (l, _) => if l.isLower && c.isUpper then 20 else 0
    | none => 0
  let after : Int := match last with
    | some (l, _) => if isSeparator l then 20 else 0
    | none => 0
  let bonus : Int := match s.taken, last with
    | t :: _, some (_, i) => if t == i then 2 * s.adjacent + 5 else 0
    | _, _ => 0
  (first + camel + after + bonus, bonus)

def look (s : Search) (j : Nat) (last : Option (Char × Nat)) (c : Char) : Search :=
  match s.pattern with
  | p :: _ =>
    if sameLetter c p then
      let (score, bonus) := letterScore s j last c
      let s := { s with adjacent := s.adjacent + bonus }
      if score > s.best then { s with best := score, place := some j } else s
    else s
  | [] => s

/-- Takes the best place when the pattern's next letter comes up, or the name ends. -/
def take (s : Search) (next : Option Char) : Search :=
  let due := match next, s.pattern.drop 1 with
    | none, _ => true
    | some n, p :: _ => sameLetter n p
    | some _, [] => false
  match s.place with
  | none => s
  | some k =>
    if !due then s
    else
      let lead : Int := if s.taken.isEmpty then max (-5 * (k : Int)) (-15) else 0
      { s with pattern := s.pattern.drop 1, best := -1, taken := k :: s.taken
               total := s.total + s.best + lead }

def run (s : Search) (j : Nat) (last : Option (Char × Nat)) : List Char → Search
  | [] => s
  | c :: rest =>
    let s := take (look s j last c) rest.head?
    run s (j + (Bytes.ofChar c).length) (some (c, j)) rest

def match? (pattern : Bytes) (index : Nat) (name : Bytes) : Option Match :=
  let s := run { pattern := Utf8.chars pattern } 0 none (Utf8.chars name)
  if s.taken.length == (Utf8.chars pattern).length then
    some ⟨name, index, s.total + s.taken.length - name.length, s.taken.reverse⟩
  else none

def insert (m : Match) : List Match → List Match
  | [] => [m]
  | x :: rest => if m.score ≥ x.score then m :: x :: rest else x :: insert m rest

/-- Best first; of equal ones the later comes first. -/
def sort (ms : List Match) : List Match := ms.foldl (fun sorted m => insert m sorted) []

def find (pattern : Bytes) (names : List Bytes) : List Match :=
  if pattern.isEmpty then []
  else sort (names.zipIdx.filterMap fun (n, i) => match? pattern i n)

end Fuzzy

end DistanceField.Editor
