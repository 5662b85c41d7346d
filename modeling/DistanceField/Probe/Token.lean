import DistanceField.Text.Letter
import DistanceField.Text.Alphabet
import DistanceField.Number.Read
import DistanceField.Number.Integer

/-! Lexical units of expressions. -/
namespace DistanceField.Probe

inductive Symbol where
  | lparen
  | rparen
  | lbracket
  | rbracket
  | comma
  | dot
  | plus
  | minus
  | star
  | slash
  | less
  | greater
  | lessEqual
  | greaterEqual
  | equal
  | notEqual
  | bang
  | both
  | either
  | question
  | colon
deriving DecidableEq, Repr

inductive Token where
  | whole (n : Nat)
  | float (v : Float)
  | text (b : Bytes)
  | name (b : Bytes)
  | symbol (s : Symbol)

namespace Token

def isDigit (c : Char) : Bool := '0' ≤ c && c ≤ '9'

def isWord (c : Char) : Bool :=
  Alphabet.isAlphanumeric c || c == '_' || c == '$'

def isE (c : Char) : Bool := c == 'e' || c == 'E'

def exponent (cs : List Char) : List Char :=
  match cs with
  | e :: rest =>
    if isE e then
      match rest with
      | s :: more =>
        if s == '+' || s == '-' then e :: s :: more.takeWhile isDigit
        else e :: (s :: more).takeWhile isDigit
      | [] => [e]
    else []
  | [] => []

def fraction (cs : List Char) : List Char :=
  match cs with
  | '.' :: rest => '.' :: rest.takeWhile isDigit
  | _ => []

def numeral (cs : List Char) : List Char :=
  let whole := cs.takeWhile isDigit
  let part := fraction (cs.drop whole.length)
  whole ++ part ++ exponent (cs.drop (whole.length + part.length))

/-- A number without a dot and an exponent is whole. -/
def ofNumeral? (lexeme : List Char) : Option Token :=
  if lexeme.all isDigit then
    (Integer.read? (Utf8.encode lexeme)).map fun n => .whole n.toNat
  else
    let r := Read.double (Utf8.encode lexeme)
    if r.error.isNone then some (.float r.value) else none

/-- A number may not run into a word. -/
def number? (cs : List Char) : Option (Token × List Char) :=
  let lexeme := numeral cs
  let rest := cs.drop lexeme.length
  if rest.head?.any isWord then none
  else (ofNumeral? lexeme).map fun t => (t, rest)

def hexValue? (c : Char) : Option Nat :=
  if isDigit c then some (c.toNat - 48)
  else if 'a' ≤ c && c ≤ 'f' then some (c.toNat - 87)
  else if 'A' ≤ c && c ≤ 'F' then some (c.toNat - 55)
  else none

def hex? (cs : List Char) : Option Nat :=
  cs.foldl (fun acc c => do return 16 * (← acc) + (← hexValue? c)) (some 0)

def letterEscape? (c : Char) : Option Char :=
  match c with
  | 'a' => some '\x07'
  | 'b' => some '\x08'
  | 'f' => some '\x0c'
  | 'n' => some '\n'
  | 'r' => some '\r'
  | 't' => some '\t'
  | 'v' => some '\x0b'
  | '\\' => some '\\'
  | '"' => some '"'
  | '\'' => some '\''
  | _ => none

def escape? (cs : List Char) : Option (Char × List Char) :=
  let coded := fun (n : Nat) (rest : List Char) =>
    if n ≤ rest.length then (hex? (rest.take n)).map fun k => (Char.ofNat k, rest.drop n) else none
  match cs with
  | 'x' :: rest => coded 2 rest
  | 'u' :: rest => coded 4 rest
  | 'U' :: rest => coded 8 rest
  | c :: rest => (letterEscape? c).map fun k => (k, rest)
  | [] => none

def string? (quote : Char) : (fuel : Nat) → List Char → List Char → Option (Token × List Char)
  | 0, _, _ => none
  | n + 1, acc, cs =>
    match cs with
    | [] => none
    | c :: rest =>
      if c == quote then some (.text (Utf8.encode acc.reverse), rest)
      else if c == '\n' then none
      else if c == '\\' then (escape? rest).bind fun (k, rest) => string? quote n (k :: acc) rest
      else string? quote n (c :: acc) rest

def symbol? : List Char → Option (Symbol × List Char)
  | '<' :: '=' :: rest => some (.lessEqual, rest)
  | '>' :: '=' :: rest => some (.greaterEqual, rest)
  | '=' :: '=' :: rest => some (.equal, rest)
  | '!' :: '=' :: rest => some (.notEqual, rest)
  | '(' :: rest => some (.lparen, rest)
  | ')' :: rest => some (.rparen, rest)
  | '[' :: rest => some (.lbracket, rest)
  | ']' :: rest => some (.rbracket, rest)
  | ',' :: rest => some (.comma, rest)
  | '.' :: rest => some (.dot, rest)
  | '+' :: rest => some (.plus, rest)
  | '-' :: rest => some (.minus, rest)
  | '*' :: rest => some (.star, rest)
  | '/' :: rest => some (.slash, rest)
  | '<' :: rest => some (.less, rest)
  | '>' :: rest => some (.greater, rest)
  | '!' :: rest => some (.bang, rest)
  | '&' :: '&' :: rest => some (.both, rest)
  | '|' :: '|' :: rest => some (.either, rest)
  | '?' :: '.' :: _ | '?' :: '?' :: _ | ':' :: ':' :: _ => none
  | '?' :: rest => some (.question, rest)
  | ':' :: rest => some (.colon, rest)
  | _ => none

/-- Words that stand for symbols, and words that name nothing. -/
def ofWord? (b : Bytes) : Option Token :=
  if b == Bytes.ofString "not" then some (.symbol .bang)
  else if b == Bytes.ofString "and" then some (.symbol .both)
  else if b == Bytes.ofString "or" then some (.symbol .either)
  else if reserved.contains b then none
  else some (.name b)
where
  reserved : List Bytes :=
    ["in", "matches", "contains", "startsWith", "endsWith", "let", "if", "else"]

def startsNumber : List Char → Bool
  | '.' :: c :: _ => isDigit c
  | c :: _ => isDigit c
  | [] => false

def next? (cs : List Char) : Option (Token × List Char) :=
  match cs with
  | [] => none
  | c :: rest =>
    if startsNumber (c :: rest) then number? (c :: rest)
    else if c == '"' || c == '\'' then string? c (rest.length + 1) [] rest
    else if isWord c then
      (ofWord? (Utf8.encode ((c :: rest).takeWhile isWord))).map fun t =>
        (t, (c :: rest).dropWhile isWord)
    else (symbol? (c :: rest)).map fun (s, rest) => (.symbol s, rest)

def scanFrom : (fuel : Nat) → List Char → Option (List Token)
  | 0, _ => none
  | n + 1, cs =>
    match cs.dropWhile Letter.isSpace with
    | [] => some []
    | c :: rest => do
      let (t, rest) ← next? (c :: rest)
      let ts ← scanFrom n rest
      pure (t :: ts)

def scan? (body : Bytes) : Option (List Token) :=
  let cs := Utf8.chars body
  scanFrom (cs.length + 1) cs

end Token

end DistanceField.Probe
