import DistanceField.Text.Bytes

/-! Reading characters from bytes. A byte that starts no well-formed sequence is read on its own,
as the replacement character. -/
namespace DistanceField.Utf8

def replacement : Char := '�'

def isTail (b : UInt8) : Bool := 0x80 ≤ b && b ≤ 0xBF

def secondOk (b0 b1 : UInt8) : Bool :=
  if b0 == 0xE0 then 0xA0 ≤ b1 && b1 ≤ 0xBF
  else if b0 == 0xED then 0x80 ≤ b1 && b1 ≤ 0x9F
  else if b0 == 0xF0 then 0x90 ≤ b1 && b1 ≤ 0xBF
  else if b0 == 0xF4 then 0x80 ≤ b1 && b1 ≤ 0x8F
  else isTail b1

def low (b : UInt8) : Nat := b.toNat % 64

/-- The first character, how many bytes it takes, and whether they are well formed. -/
def first : Bytes → Char × Nat × Bool
  | [] => (replacement, 0, false)
  | b0 :: rest =>
    let bad := (replacement, 1, false)
    if b0 < 0x80 then (Char.ofNat b0.toNat, 1, true)
    else if b0 < 0xC2 || b0 > 0xF4 then bad
    else match rest with
      | [] => bad
      | b1 :: rest =>
        if !secondOk b0 b1 then bad
        else if b0 < 0xE0 then (Char.ofNat (b0.toNat % 32 * 64 + low b1), 2, true)
        else match rest with
          | [] => bad
          | b2 :: rest =>
            if !isTail b2 then bad
            else if b0 < 0xF0 then
              (Char.ofNat (b0.toNat % 16 * 4096 + low b1 * 64 + low b2), 3, true)
            else match rest with
              | [] => bad
              | b3 :: _ =>
                if !isTail b3 then bad
                else (Char.ofNat (b0.toNat % 8 * 262144 + low b1 * 4096 + low b2 * 64 + low b3),
                  4, true)

/-- The last character of a text that is given backwards, how many bytes it takes, and whether they are
well formed. It is looked for at the nearest byte that may start a sequence; where none ends with the
text, the last byte is read on its own. -/
def last : Bytes → Char × Nat × Bool
  | [] => (replacement, 0, false)
  | b :: before =>
    if b < 0x80 then (Char.ofNat b.toNat, 1, true)
    else
      let tails := (before.take 3).takeWhile isTail
      let bytes := ((b :: before).take (tails.length + 2)).reverse
      let read := first bytes
      if read.2.1 == bytes.length then read else (replacement, 1, false)

/-- One element for each character read: the character, its bytes, and whether they are well
formed. -/
def pieces : Bytes → List (Char × Bytes × Bool)
  | [] => []
  | b :: rest =>
    let (c, n, ok) := first (b :: rest)
    (c, (b :: rest).take n, ok) :: pieces (rest.drop (n - 1))
termination_by b => b.length
decreasing_by simp only [List.length_drop, List.length_cons]; omega

def chars (b : Bytes) : List Char := (pieces b).map (·.1)

def isValid (b : Bytes) : Bool := (pieces b).all (·.2.2)

def encode (cs : List Char) : Bytes := cs.flatMap Bytes.ofChar

end DistanceField.Utf8
