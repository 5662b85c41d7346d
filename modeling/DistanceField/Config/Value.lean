import DistanceField.Number.Decimal
import DistanceField.Text.Bytes

/-! Values in configuration files. -/
namespace DistanceField.Config

inductive Value where
  | null
  | bool (b : Bool)
  | natural (n : Nat)
  | negative (n : Nat)
  | integer (n : Int)
  | float (v : Float)
  | text (b : Bytes)
  | texts (bs : List Bytes)
  | list (items : List Value)
  | map (fields : List (Bytes × Value))

namespace Value

def boolText (b : Bool) : Bytes := (if b then "true" else "false" : String)

/-- A number below zero; there is no minus zero. -/
def negativeText (n : Nat) : Bytes := if n == 0 then Bytes.ofNat 0 else 45 :: Bytes.ofNat n

mutual

/-- A value in words. Keys are sorted. -/
def display : Value → Bytes
  | null => "<nil>"
  | bool b => boolText b
  | natural n => Bytes.ofNat n
  | negative n => negativeText n
  | integer n => Bytes.ofInt n
  | float v => Decimal.text Decimal.general v
  | text b => b
  | texts bs => "[" ++ Bytes.join " " bs ++ "]"
  | list items => "[" ++ Bytes.join " " (displayItems items) ++ "]"
  | map fields =>
    let entries := (displayFields fields).mergeSort fun a b => !Bytes.before b.1 a.1
    "map[" ++ Bytes.join " " (entries.map fun e => e.1 ++ ":" ++ e.2) ++ "]"

def displayItems : List Value → List Bytes
  | [] => []
  | v :: rest => display v :: displayItems rest

def displayFields : List (Bytes × Value) → List (Bytes × Bytes)
  | [] => []
  | (k, v) :: rest => (k, display v) :: displayFields rest

end

mutual

/-- The value as flags take it: numbers are texts, also inside lists. -/
def normal : Value → Value
  | natural n => text (Bytes.ofNat n)
  | negative n => text (negativeText n)
  | integer n => text (Bytes.ofInt n)
  | float v => text (Decimal.text Decimal.general v)
  | list items => list (normalItems items)
  | v => v

def normalItems : List Value → List Value
  | [] => []
  | v :: rest => normal v :: normalItems rest

end

def typeName : Value → Bytes
  | null => "<nil>"
  | bool _ => "bool"
  | natural _ => "uint64"
  | negative _ => "int64"
  | integer _ => "int"
  | float _ => "float64"
  | text _ => "string"
  | texts _ => "[]string"
  | list _ => "[]interface \x7b\x7d"
  | map _ => "map[string]interface \x7b\x7d"

/-- The value as it is written to a file. What is empty is left out, and what is neither a switch
nor a number nor text is written in words. -/
def entry? : Value → Option Value
  | null => none
  | text b => if b.isEmpty then none else some (text b)
  | texts bs => if bs.isEmpty then none else some (texts bs)
  | list items => some (text (display (list items)))
  | map fields => some (text (display (map fields)))
  | v => some v

end Value

end DistanceField.Config
