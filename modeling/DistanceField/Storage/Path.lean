import DistanceField.Text.Bytes

/-! Slash-separated paths. -/
namespace DistanceField

namespace Path

def isAbsolute (p : Bytes) : Bool := p.head? == some 47

/-- The names of a path; empty ones and single dots name nothing. -/
def names (p : Bytes) : List Bytes :=
  (Bytes.split 47 p).filter fun n => !n.isEmpty && n != Bytes.ofString "."

def isUp (n : Bytes) : Bool := n == Bytes.ofString ".."

/-- One more name behind those of `stack`, which are given backwards. Above the root is the
root. -/
def push (absolute : Bool) (stack : List Bytes) (n : Bytes) : List Bytes :=
  if !isUp n then n :: stack
  else match stack with
    | [] => if absolute then [] else [n]
    | top :: rest => if isUp top then n :: stack else rest

def clean (p : Bytes) : Bytes :=
  let parts := ((names p).foldl (push (isAbsolute p)) []).reverse
  let text := Bytes.join "/" parts
  if isAbsolute p then "/" ++ text else if parts.isEmpty then "." else text

def join (parts : List Bytes) : Bytes :=
  match parts.filter fun p => !p.isEmpty with
  | [] => []
  | ps => clean (Bytes.join "/" ps)

def folder (p : Bytes) : Bytes := clean (p.reverse.dropWhile (· != 47)).reverse

def base (p : Bytes) : Bytes :=
  if p.isEmpty then "."
  else match (p.reverse.dropWhile (· == 47)).takeWhile (· != 47) with
    | [] => "/"
    | n => n.reverse

def stem (n : Bytes) : Bytes :=
  match n.reverse.dropWhile (· != 46) with
  | [] => n
  | _ :: rest => rest.reverse

end Path

end DistanceField
