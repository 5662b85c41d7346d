import DistanceField.Number.Natural

/-! Texts are lists of bytes: offsets, columns and cuts count bytes, and a text need not be
valid UTF-8. -/
namespace DistanceField

abbrev Bytes := List UInt8

namespace Bytes

def ofString (s : String) : Bytes := s.toList.flatMap String.utf8EncodeChar

instance : Coe String Bytes := ⟨ofString⟩

def ofChar (c : Char) : Bytes := String.utf8EncodeChar c

def byte (c : Char) : UInt8 := c.toNat.toUInt8

def ofNat (n : Nat) : Bytes := (Nat.toDigits 10 n).map byte

def ofInt : Int → Bytes
  | .ofNat n => ofNat n
  | .negSucc n => byte '-' :: ofNat (n + 1)

def hexDigit (n : Nat) : UInt8 := byte (Nat.digitChar n)

def ofHex : (width n : Nat) → Bytes
  | 0, _ => []
  | k + 1, n => ofHex k (n / 16) ++ [hexDigit (n % 16)]

def repeated (n : Nat) (b : Bytes) : Bytes := (List.replicate n b).flatten

def spaces (n : Nat) : Bytes := List.replicate n 32

def join (sep : Bytes) : List Bytes → Bytes
  | [] => []
  | [b] => b
  | b :: rest => b ++ sep ++ join sep rest

def startsWith (b start : Bytes) : Bool := start.isPrefixOf b

def endsWith (b tail : Bytes) : Bool := tail.isSuffixOf b

def after? (start b : Bytes) : Option Bytes :=
  if start.isPrefixOf b then some (b.drop start.length) else none

def cut (sep : UInt8) (b : Bytes) : Option (Bytes × Bytes) :=
  match b.dropWhile (· != sep) with
  | [] => none
  | _ :: rest => some (b.takeWhile (· != sep), rest)

/-- The pieces between `sep` bytes; one piece more than there are separators. -/
def split (sep : UInt8) : Bytes → List Bytes
  | [] => [[]]
  | c :: rest =>
    match split sep rest with
    | [] => [[c]]
    | piece :: more => if c == sep then [] :: piece :: more else (c :: piece) :: more

def includes (b part : Bytes) : Bool :=
  match b with
  | [] => part.isEmpty
  | c :: rest => part.isPrefixOf (c :: rest) || includes rest part

def isBlank (c : UInt8) : Bool := c == 32 || c == 9 || c == 10 || c == 13

def trim (p : UInt8 → Bool) (b : Bytes) : Bytes :=
  ((b.dropWhile p).reverse.dropWhile p).reverse

def lowerByte (c : UInt8) : UInt8 := if 65 ≤ c && c ≤ 90 then c + 32 else c

def upperByte (c : UInt8) : UInt8 := if 97 ≤ c && c ≤ 122 then c - 32 else c

def before : Bytes → Bytes → Bool
  | [], [] => false
  | [], _ :: _ => true
  | _ :: _, [] => false
  | a :: s, b :: t => a < b || (a == b && before s t)

def sorted (bs : List Bytes) : List Bytes := bs.mergeSort fun a b => !before b a

end Bytes

end DistanceField
