import DistanceField.Number.Decimal
import DistanceField.Number.Read

/-! Scalars of YAML: what a plain one stands for, and how a text is written so that it is read
back as a text. -/
namespace DistanceField.Yaml

inductive Scalar where
  | null
  | bool (b : Bool)
  | natural (n : Nat)
  | negative (n : Nat)
  | float (v : Float)
  | text (b : Bytes)

def Scalar.isText : Scalar → Bool
  | .text _ => true
  | _ => false

def isOne (words : List String) (b : Bytes) : Bool := words.any fun w => Bytes.ofString w == b

def isNull (b : Bytes) : Bool := isOne ["null", "Null", "NULL", "~"] b

def isTrue (b : Bytes) : Bool := isOne ["true", "True", "TRUE"] b

def isFalse (b : Bytes) : Bool := isOne ["false", "False", "FALSE"] b

def isSwitch (b : Bytes) : Bool :=
  isOne ["y", "Y", "yes", "Yes", "YES", "n", "N", "no", "No", "NO", "on", "On", "ON",
    "off", "Off", "OFF"] b

def isDigit (c : UInt8) : Bool := 48 ≤ c && c ≤ 57

/-! Numbers. -/

def naturalOf? (base : Nat) (b : Bytes) : Option Nat :=
  if b.isEmpty then none
  else b.foldl (fun acc c => do
    let n ← acc
    let d ← Read.hexValue? c
    if d < base then some (base * n + d) else none) (some 0)

def addDigit (base n : Nat) (c : UInt8) : Except Read.Error Nat :=
  match Read.hexValue? c with
  | none => .error .malformed
  | some d =>
    if d ≥ base then .error .malformed
    else if base * n + d ≥ pow2 64 then .error .outOfRange
    else .ok (base * n + d)

/-- Digits of a base, read up to the first that is none or leads out of range. -/
def integer (negative : Bool) (base : Nat) (b : Bytes) : Except Read.Error Scalar := do
  if b.isEmpty then throw .malformed
  let n ← b.foldlM (addDigit base) 0
  if !negative then return .natural n
  else if n ≤ pow2 63 then return .negative n
  else throw .outOfRange

def double (negative : Bool) (b : Bytes) : Except Read.Error Scalar :=
  match Read.double (if negative then 45 :: b else b) with
  | ⟨v, none⟩ => .ok (.float v)
  | ⟨_, some e⟩ => .error e

def withoutSign (b : Bytes) : Bytes :=
  let b := (Bytes.after? "+" b).getD b
  (Bytes.after? "-" b).getD b

/-- A plain scalar as a number. A mark tells the base, a leading zero means eight, and a point
makes a double; underscores may separate digits. -/
def number (b : Bytes) : Except Read.Error Scalar :=
  let dots := b.count 46
  let negative := b.head? == some 45
  let body := (withoutSign b).filter (· != 95)
  if b.isEmpty || b.head? == some 95 || dots > 1 then .error .malformed
  else match body with
    | 48 :: 120 :: rest => integer negative 16 rest
    | 48 :: 111 :: rest => integer negative 8 rest
    | 48 :: 98 :: rest => integer negative 2 rest
    | 48 :: c :: rest =>
      if dots == 0 then integer negative 8 (48 :: c :: rest) else double negative body
    | _ => if dots == 1 then double negative body else integer negative 10 body

/-- A number too large to be held is still not a text. -/
def isNumber (b : Bytes) : Bool :=
  match number b with
  | .ok _ | .error .outOfRange => true
  | .error .malformed => false

def Scalar.ofPlain (b : Bytes) : Scalar :=
  if isNull b then .null
  else if isTrue b then .bool true
  else if isFalse b then .bool false
  else if isOne [".inf", ".Inf", ".INF"] b then .float Double.infinity
  else if isOne ["-.inf", "-.Inf", "-.INF"] b then .float (-Double.infinity)
  else if isOne [".nan", ".NaN", ".NAN"] b then .float Double.nan
  else match number b with
    | .ok s => s
    | .error _ => .text b

/-! Dates and times. -/

def upTo (bound : Nat) (b : Bytes) : Option Bytes :=
  match b with
  | x :: y :: rest =>
    if !isDigit x then none
    else if isDigit y then
      if (x.toNat - 48) * 10 + (y.toNat - 48) < bound then some rest else none
    else some (y :: rest)
  | [x] => if isDigit x then some [] else none
  | [] => none

def pairBelow (bound : Nat) (b : Bytes) : Option Bytes :=
  match b with
  | x :: y :: rest =>
    if isDigit x && isDigit y && (x.toNat - 48) * 10 + (y.toNat - 48) < bound then some rest
    else none
  | _ => none

def mark (c : UInt8) : Bytes → Option Bytes
  | x :: rest => if x == c then some rest else none
  | [] => none

def isLeap (year : Nat) : Bool := year % 4 == 0 && (year % 100 != 0 || year % 400 == 0)

def monthDays (year month : Nat) : Nat :=
  if month == 2 then if isLeap year then 29 else 28
  else if [4, 6, 9, 11].contains month then 30
  else 31

def date? (b : Bytes) : Option Bytes :=
  match naturalOf? 10 (b.take 4), naturalOf? 10 ((b.drop 5).take 2), naturalOf? 10 ((b.drop 8).take 2) with
  | some y, some m, some d =>
    if b.length ≥ 10 && (b.drop 4).head? == some 45 && (b.drop 7).head? == some 45 &&
        1 ≤ m && m ≤ 12 && 1 ≤ d && d ≤ monthDays y m then some (b.drop 10)
    else none
  | _, _, _ => none

def skipFraction : Bytes → Bytes
  | p :: d :: rest =>
    if (p == 46 || p == 44) && isDigit d then rest.dropWhile isDigit else p :: d :: rest
  | b => b

def timeOfDay? (b : Bytes) : Option Bytes := do
  let b ← mark 58 (← upTo 24 b)
  let b ← mark 58 (← pairBelow 60 b)
  some (skipFraction (← pairBelow 60 b))

def isZone : Bytes → Bool
  | [90] => true
  | c :: rest => (c == 43 || c == 45) &&
    ((do pairBelow 61 (← mark 58 (← pairBelow 25 rest))) == some [])
  | [] => false

def isClock (b : Bytes) : Bool := (do upTo 60 (← mark 58 (← upTo 24 b))) == some []

def isTimestamp (b : Bytes) : Bool :=
  isClock b ||
    match date? b with
    | none => false
    | some [] => true
    | some (c :: rest) =>
      match timeOfDay? rest with
      | none => false
      | some zone => (c == 32 && zone.isEmpty) || ((c == 84 || c == 116) && isZone zone)

/-! Quoting. -/

def special : Bytes := "*&[\x7b\x7d],!|>%'\"@` "

/-- A mark that ends a plain scalar: a comment, a backslash, or a colon or dash before a space. -/
def interrupted : Bytes → Bool
  | [] => false
  | c :: rest =>
    c == 35 || c == 92 || ((c == 58 || c == 45) && rest.head? == some 32) || interrupted rest

/-- Inside brackets a colon ends a key, unless a slash follows it. -/
def hasKeyColon : Bytes → Bool
  | [] => false
  | c :: rest => (c == 58 && rest.head? != some 47) || hasKeyColon rest

def needsQuotes (flow : Bool) (b : Bytes) : Bool :=
  b.isEmpty || isNull b || isTrue b || isFalse b || isSwitch b || isNumber b ||
    (match b.head? with
      | some c => special.contains c
      | none => false) ||
    (match b.getLast? with
      | some c => c == 58 || c == 32
      | none => false) ||
    isTimestamp b || interrupted b ||
    (flow && (hasKeyColon b || b.any fun c => c == 93 || c == 125 || c == 44 || c == 39 || c == 34))

/-- The line break that a text uses, by majority. -/
def lineBreak (b : Bytes) : Bytes :=
  let feeds := b.count 10
  let returns := b.count 13
  let pairs := (b.zip (b.drop 1)).count (13, 10)
  if feeds == pairs && returns == pairs then [13, 10]
  else if returns > feeds then [13]
  else [10]

def dropEnd (tail b : Bytes) : Bytes :=
  if tail.isSuffixOf b then b.take (b.length - tail.length) else b

def linesOf (nl b : Bytes) : List Bytes :=
  (Bytes.split (nl.getLastD 10) b).map (dropEnd nl.dropLast)

/-- A text of several lines below a mark that tells how it ends; the lines start at a column. -/
def literal (column : Nat) (b : Bytes) : Bytes :=
  let nl := lineBreak b
  let mark : Bytes :=
    if Bytes.endsWith b (nl ++ nl) then "|+" else if Bytes.endsWith b nl then "|" else "|-"
  let lines := (linesOf nl b).map (Bytes.spaces column ++ ·)
  let body := dropEnd (nl ++ Bytes.spaces column) (Bytes.join nl lines)
  mark ++ nl ++ dropEnd (Bytes.spaces column) body

def string (flow : Bool) (column : Nat) (b : Bytes) : Bytes :=
  if needsQuotes flow b then Quoted.quote b
  else if b.includes (lineBreak b) then literal column b
  else b

/-- A double always has a point or an exponent. -/
def float (v : Float) : Bytes :=
  match Double.view v with
  | .nan => ".nan"
  | .infinite negative => (if negative then "-.inf" else ".inf" : String)
  | _ =>
    let t := Decimal.text Decimal.general v
    if t.contains 46 || t.contains 101 then t else t ++ ".0"

end DistanceField.Yaml
