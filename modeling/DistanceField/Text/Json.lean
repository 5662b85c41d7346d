import DistanceField.Text.Utf8

/-! Writing JSON. Numbers come as text. -/
namespace DistanceField

inductive Json where
  | null
  | bool (b : Bool)
  | number (text : Bytes)
  | string (b : Bytes)
  | array (items : List Json)
  | object (fields : List (Bytes × Json))

namespace Json

def field (key : Bytes) (j : Json) : Bytes × Json := (key, j)

def unicode (n : Nat) : Bytes := [92, 117] ++ Bytes.ofHex 4 n

/-- Where a string goes: into a document, which a page may embed, or into a log. -/
inductive Target where
  | document
  | log
deriving DecidableEq, Repr

/-- Control characters, quotes and backslashes are escaped, and the two line separators; in a
document also what would end a script. A log has no letters for backspace and form feed. -/
def escape (t : Target) (c : Char) : Bytes :=
  match t, c.toNat with
  | _, 34 => [92, 34]
  | _, 92 => [92, 92]
  | .document, 8 => [92, 98]
  | _, 9 => [92, 116]
  | _, 10 => [92, 110]
  | .document, 12 => [92, 102]
  | _, 13 => [92, 114]
  | t, n =>
    if n < 32 || n == 0x2028 || n == 0x2029 then unicode n
    else if t == .document && (n == 60 || n == 62 || n == 38) then unicode n
    else Bytes.ofChar c

/-- Malformed bytes are written as the replacement character. -/
def quoteFor (t : Target) (b : Bytes) : Bytes :=
  34 :: (Utf8.pieces b).flatMap (fun (c, _, ok) =>
    if ok then escape t c else unicode 0xFFFD) ++ [34]

def quote (b : Bytes) : Bytes := quoteFor .document b

mutual

def compact : Json → Bytes
  | null => "null"
  | bool b => (if b then "true" else "false" : String)
  | number t => t
  | string b => quote b
  | array items => "[" ++ compactItems items ++ "]"
  | object fields => "\x7b" ++ compactFields fields ++ "\x7d"

def compactItems : List Json → Bytes
  | [] => []
  | [j] => j.compact
  | j :: rest => j.compact ++ "," ++ compactItems rest

def compactFields : List (Bytes × Json) → Bytes
  | [] => []
  | [(k, j)] => quote k ++ ":" ++ j.compact
  | (k, j) :: rest => quote k ++ ":" ++ j.compact ++ "," ++ compactFields rest

end

def newline (unit depth : Nat) : Bytes := 10 :: Bytes.spaces (unit * depth)

mutual

def indented (unit depth : Nat) : Json → Bytes
  | array [] => "[]"
  | object [] => "\x7b\x7d"
  | array items => "[" ++ indentedItems unit (depth + 1) items ++ newline unit depth ++ "]"
  | object fields =>
    "\x7b" ++ indentedFields unit (depth + 1) fields ++ newline unit depth ++ "\x7d"
  | j => j.compact

def indentedItems (unit depth : Nat) : List Json → Bytes
  | [] => []
  | [j] => newline unit depth ++ indented unit depth j
  | j :: rest =>
    newline unit depth ++ indented unit depth j ++ "," ++ indentedItems unit depth rest

def indentedFields (unit depth : Nat) : List (Bytes × Json) → Bytes
  | [] => []
  | [(k, j)] => newline unit depth ++ quote k ++ ": " ++ indented unit depth j
  | (k, j) :: rest =>
    newline unit depth ++ quote k ++ ": " ++ indented unit depth j ++ "," ++
      indentedFields unit depth rest

end

end Json

end DistanceField
