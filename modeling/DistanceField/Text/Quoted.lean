import DistanceField.Text.Utf8
import DistanceField.Text.Printable

/-! Double-quoted text: quotes, backslashes and all that is not printable are escaped. -/
namespace DistanceField.Quoted

def letter? (c : Char) : Option Char :=
  match c.toNat with
  | 7 => some 'a'
  | 8 => some 'b'
  | 9 => some 't'
  | 10 => some 'n'
  | 11 => some 'v'
  | 12 => some 'f'
  | 13 => some 'r'
  | _ => none

def escape (c : Char) : Bytes :=
  if c == '"' || c == '\\' then [92, Bytes.byte c]
  else if Printable.isPrintable c then Bytes.ofChar c
  else match letter? c with
    | some l => [92, Bytes.byte l]
    | none =>
      if c.toNat < 0x80 then [92, 120] ++ Bytes.ofHex 2 c.toNat
      else if c.toNat < 0x10000 then [92, 117] ++ Bytes.ofHex 4 c.toNat
      else [92, 85] ++ Bytes.ofHex 8 c.toNat

/-- A malformed byte is written by its code. -/
def piece : Char × Bytes × Bool → Bytes
  | (c, _, true) => escape c
  | (_, b, false) => b.flatMap fun x => [92, 120] ++ Bytes.ofHex 2 x.toNat

def quote (b : Bytes) : Bytes := 34 :: (Utf8.pieces b).flatMap piece ++ [34]

end DistanceField.Quoted
