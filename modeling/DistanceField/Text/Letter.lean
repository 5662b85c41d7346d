import DistanceField.Text.Utf8

/-! Blanks and letters beyond ASCII, as far as they matter for ASCII names. -/
namespace DistanceField.Letter

def isSpace (c : Char) : Bool :=
  let n := c.toNat
  (9 ≤ n && n ≤ 13) || n == 0x20 || n == 0x85 || n == 0xA0 || n == 0x1680 ||
    (0x2000 ≤ n && n ≤ 0x200A) || n == 0x2028 || n == 0x2029 || n == 0x202F || n == 0x205F ||
    n == 0x3000

def trim (b : Bytes) : Bytes :=
  let blank := fun (p : Char × Bytes × Bool) => p.2.2 && isSpace p.1
  ((((Utf8.pieces b).dropWhile blank).reverse.dropWhile blank).reverse).flatMap (·.2.1)

def fields (b : Bytes) : List Bytes :=
  let step := fun (acc : Bytes × List Bytes) (p : Char × Bytes × Bool) =>
    if p.2.2 && isSpace p.1 then ([], if acc.1.isEmpty then acc.2 else acc.2 ++ [acc.1])
    else (acc.1 ++ p.2.1, acc.2)
  let (last, words) := (Utf8.pieces b).foldl step ([], [])
  if last.isEmpty then words else words ++ [last]

/-- Lower case; the dotted capital I and the Kelvin sign are letters too. -/
def lower (c : Char) : Char :=
  if c == 'İ' then 'i' else if c == 'K' then 'k' else c.toLower

/-- Upper case; the dotless i and the long s are letters too. -/
def upper (c : Char) : Char :=
  if c == 'ı' then 'I' else if c == 'ſ' then 'S' else c.toUpper

def fold (c : Char) : Char :=
  if c == 'ſ' then 's' else if c == 'K' then 'k' else c.toLower

def lowered (b : Bytes) : List Char := (Utf8.chars b).map lower

def uppered (b : Bytes) : List Char := (Utf8.chars b).map upper

def same (a b : Bytes) : Bool := (Utf8.chars a).map fold == (Utf8.chars b).map fold

end DistanceField.Letter
