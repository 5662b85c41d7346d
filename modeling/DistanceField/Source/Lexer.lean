import DistanceField.Source.Complaint

/-! Scanning a source text into tokens by longest match. -/
namespace DistanceField

namespace Lexer

def isDigit (b : UInt8) : Bool := 48 ≤ b && b ≤ 57

def isLetter (b : UInt8) : Bool := (97 ≤ b && b ≤ 122) || (65 ≤ b && b ≤ 90)

inductive Class where
  | digit
  | letter
  | mark (kind : Kind)
  | unknown
deriving DecidableEq

def classify (b : UInt8) : Class :=
  if isDigit b then .digit
  else if isLetter b then .letter
  else match Kind.ofByte? b with
    | some k => .mark k
    | none => .unknown

def run (p : UInt8 → Bool) (s : Bytes) : Nat := (s.takeWhile p).length

def lexeme (b : UInt8) (rest : Bytes) : Except Trouble Kind × Nat :=
  match classify b with
  | .letter => (.ok .identifier, run isLetter rest)
  | .mark k => (.ok k, 0)
  | .digit =>
    let whole := run isDigit rest
    match rest.drop whole with
    | 46 :: more =>
      let part := run isDigit more
      if part == 0 then (.error .bareDot, whole + 1) else (.ok .number, whole + 1 + part)
    | _ => (.ok .number, whole)
  | .unknown =>
    let (c, n, _) := Utf8.first (b :: rest)
    (.error (.unknownCharacter c), n - 1)

end Lexer

structure Lexer where
  pos : Nat
  rest : Bytes

namespace Lexer

def start (source : Bytes) : Lexer := ⟨0, source⟩

def skipBlanks (l : Lexer) : Lexer :=
  let n := run Bytes.isBlank l.rest
  ⟨l.pos + n, l.rest.drop n⟩

def token (pos : Nat) (b : UInt8) (rest : Bytes) : Except Complaint Token × Lexer :=
  let n := (lexeme b rest).2
  let span : Interval := ⟨pos, pos + n + 1⟩
  let found := match (lexeme b rest).1 with
    | .ok kind => .ok ⟨kind, b :: rest.take n, span⟩
    | .error trouble => .error ⟨trouble, span⟩
  (found, ⟨pos + n + 1, rest.drop n⟩)

/-- The next token; at the end the place stays. -/
def next (l : Lexer) : Except Complaint Token × Lexer :=
  match l.skipBlanks.rest with
  | [] => (.ok (Token.finish l.skipBlanks.pos), l.skipBlanks)
  | b :: rest => token l.skipBlanks.pos b rest

theorem length_skipBlanks_le (l : Lexer) : l.skipBlanks.rest.length ≤ l.rest.length := by
  simp [skipBlanks]

theorem length_token_le (pos : Nat) (b : UInt8) (rest : Bytes) :
    (token pos b rest).2.rest.length ≤ rest.length := by
  simp [token]

/-- All tokens up to the end of input, or the first complaint, and the place behind. -/
def scan (l : Lexer) : Except Complaint (List Token) × Lexer :=
  match _h : l.skipBlanks.rest with
  | [] => (.ok [Token.finish l.skipBlanks.pos], l.skipBlanks)
  | b :: rest =>
    let step := token l.skipBlanks.pos b rest
    match step.1 with
    | .error c => (.error c, step.2)
    | .ok t =>
      let more := step.2.scan
      (more.1.map (t :: ·), more.2)
termination_by l.rest.length
decreasing_by
  have a := length_token_le l.skipBlanks.pos b rest
  have c := length_skipBlanks_le l
  rw [_h] at c
  simp only [List.length_cons] at c
  omega

end Lexer

def scan (source : Bytes) : Except Complaint (List Token) := (Lexer.start source).scan.1

end DistanceField
