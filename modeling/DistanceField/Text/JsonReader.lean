import DistanceField.Number.Read
import DistanceField.Text.Json
import DistanceField.Text.Quoted

/-! Reading JSON. -/
namespace DistanceField.Json

/-- Why a text is no JSON: it ends too soon, or a byte does not belong where it stands. -/
inductive Trouble where
  | ended
  | unexpected (byte : UInt8) (place : Bytes)
deriving DecidableEq, Repr

def Trouble.shown (c : UInt8) : Bytes :=
  if c == 39 then "'\\''"
  else if c == 34 then "'\"'"
  else "'" ++ ((Quoted.quote (Bytes.ofChar (Char.ofNat c.toNat))).drop 1).dropLast ++ "'"

def Trouble.message : Trouble → Bytes
  | ended => "unexpected EOF"
  | unexpected c place => "invalid character " ++ shown c ++ " " ++ place

namespace Reader

def fail {α : Type} (place : Bytes) : Bytes → Except Trouble α
  | [] => .error .ended
  | c :: _ => .error (.unexpected c place)

def skip (b : Bytes) : Bytes := b.dropWhile Bytes.isBlank

/-- A piece of a string: a byte as it stands, or the code unit of an escape. -/
inductive Piece where
  | byte (b : UInt8)
  | unit (n : Nat)
deriving DecidableEq, Repr

def escaped? (c : UInt8) : Option UInt8 :=
  if c == 34 || c == 92 || c == 47 then some c
  else if c == 98 then some 8
  else if c == 102 then some 12
  else if c == 110 then some 10
  else if c == 114 then some 13
  else if c == 116 then some 9
  else none

def hex4? (a b c d : UInt8) : Option Nat := do
  some (((← Read.hexValue? a) * 16 + (← Read.hexValue? b)) * 256 +
    (← Read.hexValue? c) * 16 + (← Read.hexValue? d))

def badUnit {α : Type} (b : Bytes) : Except Trouble α :=
  fail "in \\u hexadecimal character escape" (b.dropWhile fun c => (Read.hexValue? c).isSome)

def pieces : Bytes → Except Trouble (List Piece × Bytes)
  | [] => .error .ended
  | 34 :: rest => .ok ([], rest)
  | 92 :: 117 :: a :: b :: c :: d :: rest =>
    match hex4? a b c d with
    | none => badUnit [a, b, c, d]
    | some n => do
      let (ps, rest) ← pieces rest
      .ok (.unit n :: ps, rest)
  | 92 :: 117 :: rest => badUnit rest
  | 92 :: c :: rest =>
    match escaped? c with
    | none => .error (.unexpected c "in string escape code")
    | some e => do
      let (ps, rest) ← pieces rest
      .ok (.byte e :: ps, rest)
  | [92] => .error .ended
  | b :: rest =>
    if b < 32 then .error (.unexpected b "in string literal")
    else do
      let (ps, rest) ← pieces rest
      .ok (.byte b :: ps, rest)

def isHigh (n : Nat) : Bool := 0xD800 ≤ n && n < 0xDC00

def isLow (n : Nat) : Bool := 0xDC00 ≤ n && n < 0xE000

/-- The bytes of the pieces. Two units may be one character; half of one is replaced. -/
def joinPieces : List Piece → Bytes
  | [] => []
  | .byte b :: rest => b :: joinPieces rest
  | .unit n :: .unit m :: rest =>
    if isHigh n && isLow m then
      Bytes.ofChar (Char.ofNat (0x10000 + (n - 0xD800) * 1024 + (m - 0xDC00))) ++ joinPieces rest
    else if isHigh n || isLow n then Bytes.ofChar Utf8.replacement ++ joinPieces (.unit m :: rest)
    else Bytes.ofChar (Char.ofNat n) ++ joinPieces (.unit m :: rest)
  | .unit n :: rest =>
    if isHigh n || isLow n then Bytes.ofChar Utf8.replacement ++ joinPieces rest
    else Bytes.ofChar (Char.ofNat n) ++ joinPieces rest

/-- A string behind its opening quote. Malformed bytes are replaced. -/
def string (b : Bytes) : Except Trouble (Bytes × Bytes) := do
  let (ps, rest) ← pieces b
  .ok (Utf8.encode (Utf8.chars (joinPieces ps)), rest)

def digits (b : Bytes) : Bytes × Bytes := (b.takeWhile Read.isDigit, b.dropWhile Read.isDigit)

def someDigits (place lead b : Bytes) : Except Trouble (Bytes × Bytes) :=
  match digits b with
  | ([], rest) => fail place rest
  | (ds, rest) => .ok (lead ++ ds, rest)

def fraction : Bytes → Except Trouble (Bytes × Bytes)
  | 46 :: rest => someDigits "after decimal point in numeric literal" [46] rest
  | b => .ok ([], b)

def exponent : Bytes → Except Trouble (Bytes × Bytes)
  | c :: rest =>
    let place : Bytes := "in exponent of numeric literal"
    if c == 101 || c == 69 then
      match rest with
      | 43 :: more => someDigits place [c, 43] more
      | 45 :: more => someDigits place [c, 45] more
      | _ => someDigits place [c] rest
    else .ok ([], c :: rest)
  | [] => .ok ([], [])

/-- No digit follows a leading zero. -/
def whole : Bytes → Except Trouble (Bytes × Bytes)
  | 48 :: rest => .ok ([48], rest)
  | b => someDigits "in numeric literal" [] b

def number (b : Bytes) : Except Trouble (Json × Bytes) := do
  let (minus, b) : Bytes × Bytes := match b with
    | 45 :: rest => ([45], rest)
    | b => ([], b)
  let (w, b) ← whole b
  let (f, b) ← fraction b
  let (e, b) ← exponent b
  .ok (.number (minus ++ w ++ f ++ e), b)

def letters (word : Bytes) : Bytes → Bytes → Except Trouble Bytes
  | [], b => .ok b
  | _, [] => .error .ended
  | w :: ws, c :: b =>
    if w == c then letters word ws b
    else .error (.unexpected c ("in literal " ++ word ++ " (expecting '" ++ [w] ++ "')"))

def keyword (word : Bytes) (j : Json) (b : Bytes) : Except Trouble (Json × Bytes) := do
  .ok (j, ← letters word word b)

def maxDepth : Nat := 10000

def tooDeep (c : UInt8) : Trouble := .unexpected c "exceeded max depth"

mutual

def value (fuel depth : Nat) (b : Bytes) : Except Trouble (Json × Bytes) :=
  match fuel, skip b with
  | 0, _ => .error .ended
  | _, [] => .error .ended
  | fuel + 1, c :: rest =>
    if c == 34 then do
      let (s, rest) ← string rest
      .ok (.string s, rest)
    else if c == 91 then
      if depth ≥ maxDepth then .error (tooDeep c)
      else match skip rest with
        | 93 :: rest => .ok (.array [], rest)
        | rest => do
          let (js, rest) ← items fuel (depth + 1) rest
          .ok (.array js, rest)
    else if c == 123 then
      if depth ≥ maxDepth then .error (tooDeep c)
      else match skip rest with
        | 125 :: rest => .ok (.object [], rest)
        | rest => do
          let (fs, rest) ← members fuel (depth + 1) rest
          .ok (.object fs, rest)
    else if c == 110 then keyword "null" .null (c :: rest)
    else if c == 116 then keyword "true" (.bool true) (c :: rest)
    else if c == 102 then keyword "false" (.bool false) (c :: rest)
    else if c == 45 || Read.isDigit c then number (c :: rest)
    else .error (.unexpected c "looking for beginning of value")

def items (fuel depth : Nat) (b : Bytes) : Except Trouble (List Json × Bytes) :=
  match fuel with
  | 0 => .error .ended
  | fuel + 1 => do
    let (j, b) ← value fuel depth b
    match skip b with
    | 44 :: rest =>
      let (js, rest) ← items fuel depth rest
      .ok (j :: js, rest)
    | 93 :: rest => .ok ([j], rest)
    | b => fail "after array element" b

def members (fuel depth : Nat) (b : Bytes) : Except Trouble (List (Bytes × Json) × Bytes) :=
  match fuel, skip b with
  | 0, _ => .error .ended
  | fuel + 1, 34 :: b => do
    let (k, b) ← string b
    match skip b with
    | 58 :: b =>
      let (j, b) ← value fuel depth b
      match skip b with
      | 44 :: rest =>
        let (fs, rest) ← members fuel depth rest
        .ok ((k, j) :: fs, rest)
      | 125 :: rest => .ok ([(k, j)], rest)
      | b => fail "after object key:value pair" b
    | b => fail "after object key" b
  | _, b => fail "looking for beginning of object key string" b

end

end Reader

def first (b : Bytes) : Except Trouble (Json × Bytes) := Reader.value (2 * b.length + 2) 0 b

mutual

/-- The first bracket that there is no room for, with room for so many in each other. -/
def deep? (room : Nat) : Json → Option UInt8
  | .array items =>
    match room with
    | 0 => some 91
    | room + 1 => deepIn room items
  | .object fields =>
    match room with
    | 0 => some 123
    | room + 1 => deepUnder room fields
  | _ => none

def deepIn (room : Nat) : List Json → Option UInt8
  | [] => none
  | j :: rest => (deep? room j).or (deepIn room rest)

def deepUnder (room : Nat) : List (Bytes × Json) → Option UInt8
  | [] => none
  | (_, j) :: rest => (deep? room j).or (deepUnder room rest)

end

/-- One item a line. To be indented a text is read again, so it may not nest deeper than a reader
goes. -/
def pretty (unit : Nat) (j : Json) : Except Trouble Bytes :=
  match j.deep? Reader.maxDepth with
  | some c => .error (Reader.tooDeep c)
  | none => .ok (j.indented unit 0)

mutual

def overflow? : Json → Option Bytes
  | .number t => if (Read.double t).error.isSome then some t else none
  | .array items => overflowIn items
  | .object fields => overflowUnder fields
  | _ => none

def overflowIn : List Json → Option Bytes
  | [] => none
  | j :: rest => (overflow? j).or (overflowIn rest)

def overflowUnder : List (Bytes × Json) → Option Bytes
  | [] => none
  | (_, j) :: rest => (overflow? j).or (overflowUnder rest)

end

/-- The value that a text holds, with nothing but white space around it and no number out of range. -/
def read? (b : Bytes) : Option Json := do
  let (j, rest) ← (first b).toOption
  if (Reader.skip rest).isEmpty && (overflow? j).isNone then some j else none

/-- Of equal keys the last counts; the order is that of first mention. -/
def assign (fields : List (Bytes × Json)) (k : Bytes) (j : Json) : List (Bytes × Json) :=
  if fields.any (·.1 == k) then fields.map fun f => if f.1 == k then (k, j) else f
  else fields ++ [(k, j)]

/-- The fields of an object, each key once. -/
def distinct (fields : List (Bytes × Json)) : List (Bytes × Json) :=
  fields.foldl (fun fs f => assign fs f.1 f.2) []

end DistanceField.Json
