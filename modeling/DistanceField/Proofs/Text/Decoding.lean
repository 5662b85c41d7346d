import Mathlib
import DistanceField.Text.Letter

/-! Characters are read back from the bytes that they are written as, and bytes that no character is
written as are read one by one. -/
namespace DistanceField.Utf8

theorem isTail_iff (b : UInt8) : isTail b = true ↔ 0x80 ≤ b.toNat ∧ b.toNat ≤ 0xBF := by
  simp [isTail, UInt8.le_iff_toNat_le]

theorem secondOk_iff (b0 b1 : UInt8) : secondOk b0 b1 = true ↔
    (0x80 ≤ b1.toNat ∧ b1.toNat ≤ 0xBF) ∧
    (b0.toNat = 0xE0 → 0xA0 ≤ b1.toNat) ∧ (b0.toNat = 0xED → b1.toNat ≤ 0x9F) ∧
    (b0.toNat = 0xF0 → 0x90 ≤ b1.toNat) ∧ (b0.toNat = 0xF4 → b1.toNat ≤ 0x8F) := by
  unfold secondOk
  simp only [beq_iff_eq, ← UInt8.toNat_inj, UInt8.reduceToNat]
  split_ifs <;> simp [isTail_iff, UInt8.le_iff_toNat_le] <;> omega

section First

variable {b0 b1 b2 b3 : UInt8} (rest : Bytes)

theorem first_one (single : b0.toNat < 0x80) :
    first (b0 :: rest) = (Char.ofNat b0.toNat, 1, true) :=
  if_pos (UInt8.lt_iff_toNat_lt.mpr single)

theorem lead_cases (lead : 0xC2 ≤ b0.toNat ∧ b0.toNat ≤ 0xF4) :
    ¬ b0 < 0x80 ∧ ¬ (decide (b0 < 0xC2) || decide (b0 > 0xF4)) = true := by
  simp [UInt8.lt_iff_toNat_lt]
  omega

variable (second : secondOk b0 b1 = true)

include second

theorem first_two (lead : 0xC2 ≤ b0.toNat ∧ b0.toNat < 0xE0) :
    first (b0 :: b1 :: rest) = (Char.ofNat (b0.toNat % 32 * 64 + b1.toNat % 64), 2, true) := by
  obtain ⟨large, valid⟩ := lead_cases ⟨lead.1, by omega⟩
  have short : b0 < 0xE0 := UInt8.lt_iff_toNat_lt.mpr lead.2
  unfold first
  dsimp only
  rw [if_neg large, if_neg valid, second, if_neg (by decide), if_pos short]
  rfl

theorem first_three (lead : 0xE0 ≤ b0.toNat ∧ b0.toNat < 0xF0) (third : isTail b2 = true) :
    first (b0 :: b1 :: b2 :: rest) =
      (Char.ofNat (b0.toNat % 16 * 4096 + b1.toNat % 64 * 64 + b2.toNat % 64), 3, true) := by
  obtain ⟨large, valid⟩ := lead_cases (show 0xC2 ≤ b0.toNat ∧ b0.toNat ≤ 0xF4 by omega)
  have long : ¬ b0 < 0xE0 := by
    simpa [UInt8.lt_iff_toNat_lt] using lead.1
  have short : b0 < 0xF0 := UInt8.lt_iff_toNat_lt.mpr lead.2
  unfold first
  dsimp only
  rw [if_neg large, if_neg valid, second, if_neg (by decide), if_neg long, third,
    if_neg (by decide), if_pos short]
  rfl

theorem first_four (lead : 0xF0 ≤ b0.toNat ∧ b0.toNat ≤ 0xF4) (third : isTail b2 = true)
    (fourth : isTail b3 = true) :
    first (b0 :: b1 :: b2 :: b3 :: rest) =
      (Char.ofNat (b0.toNat % 8 * 262144 + b1.toNat % 64 * 4096 + b2.toNat % 64 * 64 +
        b3.toNat % 64), 4, true) := by
  obtain ⟨large, valid⟩ := lead_cases (show 0xC2 ≤ b0.toNat ∧ b0.toNat ≤ 0xF4 by omega)
  have long : ¬ b0 < 0xE0 ∧ ¬ b0 < 0xF0 := by
    simp [UInt8.lt_iff_toNat_lt]
    omega
  unfold first
  dsimp only
  rw [if_neg large, if_neg valid, second, if_neg (by decide), if_neg long.1, third,
    if_neg (by decide), if_neg long.2, fourth, if_neg (by decide)]
  rfl

end First

theorem toNat_byte {n : Nat} (small : n < 256) : (UInt8.ofNat n).toNat = n :=
  UInt8.toNat_ofNat_of_lt' small

theorem char_bounds (c : Char) : c.val.toNat < 0xD800 ∨ 0xDFFF < c.val.toNat ∧ c.val.toNat < 0x110000 :=
  c.valid

section Written

variable {v : Nat} (rest : Bytes)

theorem isTail_written (n : Nat) : isTail (UInt8.ofNat (n % 64 + 128)) = true := by
  rw [isTail_iff, toNat_byte (by omega)]
  omega

theorem first_written_one (most : v ≤ 0x7F) :
    first (UInt8.ofNat v :: rest) = (Char.ofNat v, 1, true) := by
  have b0 : (UInt8.ofNat v).toNat = v := toNat_byte (by omega)
  have head : first (UInt8.ofNat v :: rest) = _ := first_one rest (by omega)
  rwa [b0] at head

theorem first_written_two (least : 0x7F < v) (most : v ≤ 0x7FF) :
    first (UInt8.ofNat (v / 64 % 32 + 192) :: UInt8.ofNat (v % 64 + 128) :: rest) =
      (Char.ofNat v, 2, true) := by
  have b0 : (UInt8.ofNat (v / 64 % 32 + 192)).toNat = v / 64 % 32 + 192 := toNat_byte (by omega)
  have b1 : (UInt8.ofNat (v % 64 + 128)).toNat = v % 64 + 128 := toNat_byte (by omega)
  have second : secondOk (UInt8.ofNat (v / 64 % 32 + 192)) (UInt8.ofNat (v % 64 + 128)) = true := by
    rw [secondOk_iff, b0, b1]
    omega
  have head := first_two rest second (by omega)
  have sum : (v / 64 % 32 + 192) % 32 * 64 + (v % 64 + 128) % 64 = v := by omega
  rwa [b0, b1, sum] at head

theorem first_written_three (least : 0x7FF < v) (most : v ≤ 0xFFFF)
    (legal : v < 0xD800 ∨ 0xDFFF < v) :
    first (UInt8.ofNat (v / 4096 % 16 + 224) :: UInt8.ofNat (v / 64 % 64 + 128) ::
      UInt8.ofNat (v % 64 + 128) :: rest) = (Char.ofNat v, 3, true) := by
  have b0 : (UInt8.ofNat (v / 4096 % 16 + 224)).toNat = v / 4096 % 16 + 224 := toNat_byte (by omega)
  have b1 : (UInt8.ofNat (v / 64 % 64 + 128)).toNat = v / 64 % 64 + 128 := toNat_byte (by omega)
  have b2 : (UInt8.ofNat (v % 64 + 128)).toNat = v % 64 + 128 := toNat_byte (by omega)
  have second : secondOk (UInt8.ofNat (v / 4096 % 16 + 224))
      (UInt8.ofNat (v / 64 % 64 + 128)) = true := by
    rw [secondOk_iff, b0, b1]
    omega
  have head := first_three rest second (by omega) (isTail_written v)
  have sum : (v / 4096 % 16 + 224) % 16 * 4096 + (v / 64 % 64 + 128) % 64 * 64 +
      (v % 64 + 128) % 64 = v := by omega
  rwa [b0, b1, b2, sum] at head

theorem first_written_four (least : 0xFFFF < v) (most : v < 0x110000) :
    first (UInt8.ofNat (v / 262144 % 8 + 240) :: UInt8.ofNat (v / 4096 % 64 + 128) ::
      UInt8.ofNat (v / 64 % 64 + 128) :: UInt8.ofNat (v % 64 + 128) :: rest) =
        (Char.ofNat v, 4, true) := by
  have b0 : (UInt8.ofNat (v / 262144 % 8 + 240)).toNat = v / 262144 % 8 + 240 :=
    toNat_byte (by omega)
  have b1 : (UInt8.ofNat (v / 4096 % 64 + 128)).toNat = v / 4096 % 64 + 128 := toNat_byte (by omega)
  have b2 : (UInt8.ofNat (v / 64 % 64 + 128)).toNat = v / 64 % 64 + 128 := toNat_byte (by omega)
  have b3 : (UInt8.ofNat (v % 64 + 128)).toNat = v % 64 + 128 := toNat_byte (by omega)
  have second : secondOk (UInt8.ofNat (v / 262144 % 8 + 240))
      (UInt8.ofNat (v / 4096 % 64 + 128)) = true := by
    rw [secondOk_iff, b0, b1]
    omega
  have head := first_four rest second (by omega) (isTail_written (v / 64)) (isTail_written v)
  have sum : (v / 262144 % 8 + 240) % 8 * 262144 + (v / 4096 % 64 + 128) % 64 * 4096 +
      (v / 64 % 64 + 128) % 64 * 64 + (v % 64 + 128) % 64 = v := by omega
  rwa [b0, b1, b2, b3, sum] at head

end Written

theorem first_ofChar (c : Char) (rest : Bytes) :
    first (Bytes.ofChar c ++ rest) = (c, (Bytes.ofChar c).length, true) := by
  have bounds := char_bounds c
  have back : Char.ofNat c.val.toNat = c := c.ofNat_toNat
  unfold Bytes.ofChar String.utf8EncodeChar
  generalize c.val.toNat = v at bounds back
  subst back
  dsimp only
  split
  · exact first_written_one rest (by omega)
  · split
    · exact first_written_two rest (by omega) (by omega)
    · split
      · exact first_written_three rest (by omega) (by omega) (by omega)
      · exact first_written_four rest (by omega) (by omega)

theorem length_ofChar_pos (c : Char) : 0 < (Bytes.ofChar c).length := by
  rw [Bytes.ofChar, String.length_utf8EncodeChar]
  exact c.utf8Size_pos

theorem byte_ofChar {c : Char} {b : UInt8} (found : b ∈ Bytes.ofChar c) :
    b.toNat = c.toNat ∧ c.toNat < 128 ∨ 128 ≤ b.toNat := by
  have bounds := char_bounds c
  unfold Bytes.ofChar String.utf8EncodeChar at found
  have same : c.val.toNat = c.toNat := rfl
  rw [same] at found bounds
  generalize c.toNat = v at found bounds
  dsimp only at found
  have byte : ∀ n, 128 ≤ n → n < 256 → 128 ≤ (UInt8.ofNat n).toNat := by
    intro n least most
    rwa [toNat_byte most]
  split_ifs at found with one two three
  · left
    rw [List.mem_singleton.mp found, toNat_byte (by omega)]
    omega
  all_goals
    right
    simp only [List.mem_cons, List.not_mem_nil, or_false] at found
  · rcases found with rfl | rfl <;> exact byte _ (by omega) (by omega)
  · rcases found with rfl | rfl | rfl <;> exact byte _ (by omega) (by omega)
  · rcases found with rfl | rfl | rfl | rfl <;> exact byte _ (by omega) (by omega)

section Read

variable {b0 b1 b2 b3 : UInt8} {v : Nat}

theorem val_ofNat (legal : v < 0xD800 ∨ 0xDFFF < v ∧ v < 0x110000) :
    (Char.ofNat v).val.toNat = v :=
  (Char.toNat_ofNat v).trans (if_pos legal)

theorem ofNat_byte {b : UInt8} (same : v = b.toNat) : UInt8.ofNat v = b := by
  rw [same, UInt8.ofNat_toNat]

theorem ofChar_one (single : b0.toNat < 0x80) : Bytes.ofChar (Char.ofNat b0.toNat) = [b0] := by
  unfold Bytes.ofChar String.utf8EncodeChar
  rw [val_ofNat (by omega)]
  dsimp only
  rw [if_pos (by omega), ofNat_byte rfl]

theorem ofChar_two (lead : 0xC2 ≤ b0.toNat ∧ b0.toNat < 0xE0) (second : secondOk b0 b1 = true) :
    Bytes.ofChar (Char.ofNat (b0.toNat % 32 * 64 + b1.toNat % 64)) = [b0, b1] := by
  obtain ⟨tail, -⟩ := (secondOk_iff b0 b1).mp second
  unfold Bytes.ofChar String.utf8EncodeChar
  rw [val_ofNat (by omega)]
  dsimp only
  rw [if_neg (by omega), if_pos (by omega), ofNat_byte (b := b0) (by omega),
    ofNat_byte (b := b1) (by omega)]

theorem ofChar_three (lead : 0xE0 ≤ b0.toNat ∧ b0.toNat < 0xF0) (second : secondOk b0 b1 = true)
    (third : isTail b2 = true) :
    Bytes.ofChar (Char.ofNat (b0.toNat % 16 * 4096 + b1.toNat % 64 * 64 + b2.toNat % 64)) =
      [b0, b1, b2] := by
  obtain ⟨tail, least, most, -⟩ := (secondOk_iff b0 b1).mp second
  have last := (isTail_iff b2).mp third
  unfold Bytes.ofChar String.utf8EncodeChar
  rw [val_ofNat (by omega)]
  dsimp only
  rw [if_neg (by omega), if_neg (by omega), if_pos (by omega), ofNat_byte (b := b0) (by omega),
    ofNat_byte (b := b1) (by omega), ofNat_byte (b := b2) (by omega)]

theorem ofChar_four (lead : 0xF0 ≤ b0.toNat ∧ b0.toNat ≤ 0xF4) (second : secondOk b0 b1 = true)
    (third : isTail b2 = true) (fourth : isTail b3 = true) :
    Bytes.ofChar (Char.ofNat (b0.toNat % 8 * 262144 + b1.toNat % 64 * 4096 + b2.toNat % 64 * 64 +
      b3.toNat % 64)) = [b0, b1, b2, b3] := by
  obtain ⟨tail, -, -, least, most⟩ := (secondOk_iff b0 b1).mp second
  have next := (isTail_iff b2).mp third
  have last := (isTail_iff b3).mp fourth
  unfold Bytes.ofChar String.utf8EncodeChar
  rw [val_ofNat (by omega)]
  dsimp only
  rw [if_neg (by omega), if_neg (by omega), if_neg (by omega), ofNat_byte (b := b0) (by omega),
    ofNat_byte (b := b1) (by omega), ofNat_byte (b := b2) (by omega), ofNat_byte (b := b3) (by omega)]

end Read

/-- Bytes start with what a character is written as, or are read one by one. -/
theorem first_cases (b : UInt8) (rest : Bytes) :
    (∃ c more, b :: rest = Bytes.ofChar c ++ more) ∨ first (b :: rest) = (replacement, 1, false) := by
  unfold first
  dsimp only
  split
  · next small =>
    exact .inl ⟨_, rest, by rw [ofChar_one (UInt8.lt_iff_toNat_lt.mp small)]; rfl⟩
  split
  · exact .inr rfl
  next large lead =>
  have lead : 0xC2 ≤ b.toNat ∧ b.toNat ≤ 0xF4 := by
    simp [UInt8.lt_iff_toNat_lt] at lead
    omega
  split
  · exact .inr rfl
  next b1 rest =>
  split
  · exact .inr rfl
  next second =>
  have second : secondOk b b1 = true := by simpa using second
  split
  · next short =>
    have short := UInt8.lt_iff_toNat_lt.mp short
    exact .inl ⟨_, rest, by rw [ofChar_two ⟨lead.1, short⟩ second]; rfl⟩
  next long =>
  have long : 0xE0 ≤ b.toNat := by simpa [UInt8.lt_iff_toNat_lt] using long
  split
  · exact .inr rfl
  next b2 rest =>
  split
  · exact .inr rfl
  next third =>
  have third : isTail b2 = true := by simpa using third
  split
  · next short =>
    have short := UInt8.lt_iff_toNat_lt.mp short
    exact .inl ⟨_, rest, by rw [ofChar_three ⟨long, short⟩ second third]; rfl⟩
  next longer =>
  have longer : 0xF0 ≤ b.toNat := by simpa [UInt8.lt_iff_toNat_lt] using longer
  split
  · exact .inr rfl
  next b3 rest =>
  split
  · exact .inr rfl
  next fourth =>
  have fourth : isTail b3 = true := by simpa using fourth
  exact .inl ⟨_, rest, by rw [ofChar_four ⟨longer, lead.2⟩ second third fourth]; rfl⟩

/-- What the start of a text is read as, and how many bytes it takes: the character that is written
there, or one byte where none is. -/
inductive Rune : Bytes → Char → Nat → Prop where
  | valid {c : Char} {rest : Bytes} : Rune (Bytes.ofChar c ++ rest) c (Bytes.ofChar c).length
  | invalid {b : UInt8} {rest : Bytes} (none : ∀ c more, b :: rest ≠ Bytes.ofChar c ++ more) :
      Rune (b :: rest) replacement 1

theorem rune_first (b : UInt8) (rest : Bytes) :
    Rune (b :: rest) (first (b :: rest)).1 (first (b :: rest)).2.1 := by
  by_cases written : ∃ c more, b :: rest = Bytes.ofChar c ++ more
  · obtain ⟨c, more, same⟩ := written
    rw [same, first_ofChar]
    exact .valid
  · rw [(first_cases b rest).resolve_left written]
    exact .invalid fun c more same => written ⟨c, more, same⟩

theorem Rune.first {text : Bytes} {c : Char} {n : Nat} (rune : Rune text c n) :
    (first text).1 = c ∧ (first text).2.1 = n := by
  cases rune with
  | valid =>
    rw [first_ofChar]
    exact ⟨rfl, rfl⟩
  | @invalid b rest none =>
    have alone : ¬ ∃ c more, b :: rest = Bytes.ofChar c ++ more := by
      rintro ⟨c, more, same⟩
      exact none c more same
    rw [(first_cases b rest).resolve_left alone]
    exact ⟨rfl, rfl⟩

theorem Rune.size {text : Bytes} {c : Char} {n : Nat} (rune : Rune text c n) :
    1 ≤ n ∧ n ≤ text.length := by
  cases rune with
  | @valid c rest =>
    rw [List.length_append]
    exact ⟨length_ofChar_pos c, Nat.le_add_right _ _⟩
  | invalid => exact ⟨le_rfl, by simp⟩

theorem pieces_ofChar (c : Char) (rest : Bytes) :
    pieces (Bytes.ofChar c ++ rest) = (c, Bytes.ofChar c, true) :: pieces rest := by
  have head := first_ofChar c rest
  have some := length_ofChar_pos c
  generalize Bytes.ofChar c = bytes at head some
  cases bytes with
  | nil => simp at some
  | cons b bytes =>
    rw [List.cons_append] at head ⊢
    rw [pieces, head]
    simp

theorem pieces_encode_append (cs : List Char) (rest : Bytes) :
    pieces (encode cs ++ rest) = (cs.map fun c => (c, Bytes.ofChar c, true)) ++ pieces rest := by
  induction cs with
  | nil => rfl
  | cons c cs ih =>
    have split : encode (c :: cs) = Bytes.ofChar c ++ encode cs := rfl
    rw [split, List.append_assoc, pieces_ofChar, ih, List.map_cons, List.cons_append]

theorem pieces_encode (cs : List Char) :
    pieces (encode cs) = cs.map fun c => (c, Bytes.ofChar c, true) := by
  simpa [pieces] using pieces_encode_append cs []

theorem chars_encode (cs : List Char) : chars (encode cs) = cs := by
  rw [chars, pieces_encode, List.map_map]
  exact List.map_id cs

theorem pieces_stray {b : UInt8} {rest : Bytes} (bad : first (b :: rest) = (replacement, 1, false)) :
    pieces (b :: rest) = (replacement, [b], false) :: pieces rest := by
  rw [pieces, bad]
  simp

/-- Every text is made of characters and of bytes that are read one by one. -/
@[elab_as_elim]
theorem text_induction {motive : Bytes → Prop} (text : Bytes) (nil : motive [])
    (char : ∀ c rest, motive rest → motive (Bytes.ofChar c ++ rest))
    (stray : ∀ b rest, first (b :: rest) = (replacement, 1, false) → motive rest →
      motive (b :: rest)) : motive text := by
  induction len : text.length using Nat.strong_induction_on generalizing text with
  | h n ih =>
    cases text with
    | nil => exact nil
    | cons b rest =>
      rcases first_cases b rest with ⟨c, more, split⟩ | bad
      · have some := length_ofChar_pos c
        rw [split, List.length_append] at len
        rw [split]
        exact char c more (ih more.length (by omega) more rfl)
      · rw [List.length_cons] at len
        exact stray b rest bad (ih rest.length (by omega) rest rfl)

theorem encode_of_valid {text : Bytes} (valid : isValid text = true) : ∃ cs, text = encode cs := by
  induction text using text_induction with
  | nil => exact ⟨[], rfl⟩
  | char c rest ih =>
    rw [isValid, pieces_ofChar, List.all_cons, Bool.and_eq_true] at valid
    obtain ⟨cs, rfl⟩ := ih valid.2
    exact ⟨c :: cs, rfl⟩
  | stray b rest bad =>
    rw [isValid, pieces_stray bad] at valid
    cases valid

theorem pieces_cons {b : UInt8} (single : b < 128) (rest : Bytes) :
    pieces (b :: rest) = (Char.ofNat b.toNat, [b], true) :: pieces rest := by
  have one : first (b :: rest) = (Char.ofNat b.toNat, 1, true) := if_pos single
  rw [pieces, one]
  simp

theorem pieces_single {text : Bytes} (single : ∀ b ∈ text, b < 128) :
    pieces text = text.map fun b => (Char.ofNat b.toNat, [b], true) := by
  induction text with
  | nil => simp [pieces]
  | cons b text ih =>
    obtain ⟨here, later⟩ := List.forall_mem_cons.mp single
    simp [pieces_cons here, ih later]

theorem isValid_single {text : Bytes} (single : ∀ b ∈ text, b < 128) : isValid text = true := by
  rw [isValid, pieces_single single]
  simp

end DistanceField.Utf8

namespace DistanceField

theorem Letter.trim_marked {text : Bytes} {a z : UInt8} (single : ∀ b ∈ a :: (text ++ [z]), b < 128)
    (first : Letter.isSpace (Char.ofNat a.toNat) = false)
    (last : Letter.isSpace (Char.ofNat z.toNat) = false) :
    Letter.trim (a :: (text ++ [z])) = a :: (text ++ [z]) := by
  unfold Letter.trim
  rw [Utf8.pieces_single single]
  simp [first, last, List.flatMap_map]

end DistanceField
