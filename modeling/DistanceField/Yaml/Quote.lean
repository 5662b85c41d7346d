import DistanceField.Yaml.Cursor

/-! Quoted scalars. A line break inside is a space, several are one less, and blanks around them do
not count. -/
namespace DistanceField.Yaml.Cursor

def isMarker (cs : List Char) : Bool :=
  let m := cs.take 3
  let cut := match cs.drop 3 with
    | [] => true
    | c :: _ => isGap c || isBreak c
  cut && (m == ['-', '-', '-'] || m == ['.', '.', '.'])

/-- A quoted scalar so far, the last character first; `edge` tells that a line has just begun. -/
structure Quote where
  chars : List Char := []
  edge : Bool := false

namespace Quote

def add (c : Char) (q : Quote) : Quote := ⟨c :: q.chars, false⟩

def breakLine (q : Quote) : Quote :=
  ⟨(if q.edge then '\n' else ' ') :: q.chars.dropWhile (· == ' '), true⟩

end Quote

/-- A line break inside quotes; a mark between documents must not follow. -/
def breakQuote (s : Cursor) : Except Refusal Cursor :=
  let s := s.nextLine
  if isMarker s.rest then s.refuse .dividerInQuote 0 else .ok s

/-- A tab in front of a line must be behind the last key. -/
def tabInQuote (flaw : Flaw) (s : Cursor) : Except Refusal Cursor :=
  if s.delim ≥ s.column then s.refuse flaw 0 else .ok (s.advance 1)

/-- A scalar in single quotes, behind the first; a quote inside is doubled. -/
def singleQuoted (start : Place) (fuel : Nat) (q : Quote) (s : Cursor) :
    Except Refusal (Quote × Cursor) :=
  match fuel, s.rest with
  | 0, _ | _, [] => .error ⟨.openSingle, start, s⟩
  | fuel + 1, c :: rest =>
    let s := s.note c
    if isBreak c then do singleQuoted start fuel q.breakLine (← s.breakQuote)
    else if q.edge && c == ' ' then singleQuoted start fuel q (s.advance 1)
    else if q.edge && c == '\t' then do
      singleQuoted start fuel q (← s.tabInQuote .tabInSingle)
    else if c != '\'' then singleQuoted start fuel (q.add c) (s.advance 1)
    else if rest.head? == some '\'' then
      singleQuoted start fuel ⟨c :: q.chars, q.edge⟩ ((s.note c).advance 2)
    else .ok (q, s.advance 1)

def escaped? (c : Char) : Option Char :=
  match c with
  | '0' => some '\x00'
  | 'a' => some '\x07'
  | 'b' => some '\x08'
  | 't' | '\t' => some '\t'
  | 'n' => some '\n'
  | 'v' => some '\x0b'
  | 'f' => some '\x0c'
  | 'r' => some '\r'
  | 'e' => some '\x1b'
  | ' ' | '"' | '/' | '\\' => some c
  | 'N' => some '\u0085'
  | '_' => some '\u00a0'
  | 'L' => some '\u2028'
  | 'P' => some '\u2029'
  | _ => none

/-- A digit by its distance from the first one; no character is refused. -/
def hexDigit (c : Char) : Int :=
  if 'A' ≤ c && c ≤ 'F' then c.toNat - 55
  else if 'a' ≤ c && c ≤ 'f' then c.toNat - 87
  else c.toNat - 48

def hexNumber (cs : List Char) : Int := cs.foldl (fun n c => n * 16 + hexDigit c) 0

def charOf (n : Int) : Char :=
  let n := Int.bmod n (pow2 32)
  if n < 0 then Utf8.replacement
  else if h : n.toNat.isValidChar then Char.ofNatAux n.toNat h else Utf8.replacement

def isHigh (n : Int) : Bool := 0xD800 ≤ n && n ≤ 0xDBFF

def isLow (n : Int) : Bool := 0xDC00 ≤ n && n ≤ 0xDFFF

/-- An escape behind its backslash: the character and how many characters spell it. -/
def escape : List Char → Except Flaw (Char × Nat)
  | 'x' :: a :: b :: _ => .ok (charOf (hexNumber [a, b]), 3)
  | 'x' :: _ => .ok ('x', 1)
  | 'u' :: a :: b :: c :: d :: rest =>
    let n := hexNumber [a, b, c, d]
    if !isHigh n then .ok (charOf n, 5)
    else match rest with
      | x :: y :: e :: f :: g :: h :: _ =>
        let m := hexNumber [e, f, g, h]
        if x != '\\' || y != 'u' then .error .loneHigh
        else if isLow m then
          .ok (charOf ((n - 0xD800) * 0x400 + (m - 0xDC00) + 0x10000), 11)
        else .error .badLow
      | _ => .error .shortPair
  | 'u' :: _ => .error .shortEscape
  | 'U' :: a :: b :: c :: d :: e :: f :: g :: h :: _ =>
    .ok (charOf (hexNumber [a, b, c, d, e, f, g, h]), 9)
  | 'U' :: _ => .error .shortLongEscape
  | c :: _ =>
    match escaped? c with
    | some e => .ok (e, 1)
    | none => .error (.unknownEscape c)
  | [] => .ok ('\\', 0)

/-- A scalar in double quotes, behind the first. A line break behind a backslash is left out. -/
def doubleQuoted (start : Place) (fuel : Nat) (q : Quote) (s : Cursor) :
    Except Refusal (Quote × Cursor) :=
  match fuel, s.rest with
  | 0, _ | _, [] => .error ⟨.openDouble, start, s⟩
  | fuel + 1, c :: rest =>
    let s := s.note c
    if isBreak c then do doubleQuoted start fuel q.breakLine (← s.breakQuote)
    else if q.edge && c == ' ' then doubleQuoted start fuel q (s.advance 1)
    else if q.edge && c == '\t' then do
      doubleQuoted start fuel q (← s.tabInQuote .tabInDouble)
    else if c == '\\' then
      if (rest.head?.map isBreak) == some true then
        doubleQuoted start fuel ⟨q.chars, true⟩ ((s.notes (rest.take 1)).advance 1).nextLine
      else match escape rest with
        | .ok (e, n) =>
          doubleQuoted start fuel (q.add e) ((s.notes (rest.take n)).advance (n + 1))
        | .error flaw => (s.advance 1).refuse flaw 0
    else if c != '"' then doubleQuoted start fuel (q.add c) (s.advance 1)
    else .ok (q, s.advance 1)

def quoted (single : Bool) (s : Cursor) : Except Refusal Cursor := do
  let start := s.place
  let inner := (s.notes (s.rest.take 1)).advance 1
  let fuel := inner.rest.length + 1
  let (q, s) ← if single then singleQuoted start fuel {} inner else doubleQuoted start fuel {} inner
  return (s.emit (.verbatim .quoted q.chars.reverse s.sourceText start)).clear

end DistanceField.Yaml.Cursor
