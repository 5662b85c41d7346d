import DistanceField.Probe.Token
import DistanceField.Proofs.Lists
import DistanceField.Proofs.Number.Reading
import DistanceField.Proofs.Text.Decoding

/-! Texts whose tokens are known, wherever they stand in an expression. -/
namespace DistanceField.Probe

def glyph (b : UInt8) : Char := Char.ofNat b.toNat

def glyphs (text : Bytes) : List Char := text.map glyph

def Plain (text : Bytes) : Prop := ∀ b ∈ text, b < 128 ∧ b ≠ 59

theorem Plain.append {text more : Bytes} (first : Plain text) (second : Plain more) :
    Plain (text ++ more) := List.forall_mem_append.mpr ⟨first, second⟩

theorem glyphs_append (text more : Bytes) : glyphs (text ++ more) = glyphs text ++ glyphs more :=
  List.map_append

theorem chars_plain {text : Bytes} (plain : Plain text) : Utf8.chars text = glyphs text := by
  rw [Utf8.chars, Utf8.pieces_single fun b found => (plain b found).1, List.map_map]
  rfl

theorem ofChar_glyph : ∀ b : UInt8, b < 128 → Bytes.ofChar (glyph b) = [b] := by decide +kernel

theorem encode_glyphs {text : Bytes} (plain : Plain text) : Utf8.encode (glyphs text) = text := by
  induction text with
  | nil => rfl
  | cons b text ih =>
    obtain ⟨⟨single, -⟩, later⟩ := List.forall_mem_cons.mp plain
    show Bytes.ofChar (glyph b) ++ Utf8.encode (glyphs text) = _
    rw [ofChar_glyph b single, ih later]
    rfl

/-- The tokens of some characters, found whenever the fuel lasts for each of them. -/
def Scans (cs : List Char) (ts : List Token) : Prop :=
  ∀ n, cs.length < n → Token.scanFrom n cs = some ts

theorem Scans.nil : Scans [] [] := by
  intro n long
  obtain ⟨n, rfl⟩ := Nat.exists_eq_succ_of_ne_zero (Nat.ne_zero_of_lt long)
  rfl

theorem Scans.token {c : Char} {cs rest : List Char} {t : Token} {ts : List Token}
    (solid : Letter.isSpace c = false) (next : Token.next? (c :: cs) = some (t, rest))
    (shorter : rest.length ≤ cs.length) (scans : Scans rest ts) : Scans (c :: cs) (t :: ts) := by
  intro n long
  rw [List.length_cons] at long
  obtain ⟨n, rfl⟩ := Nat.exists_eq_add_of_le' (show 1 ≤ n by omega)
  have starts : (c :: cs).dropWhile Letter.isSpace = c :: cs :=
    List.dropWhile_cons_of_neg (by rw [solid]; nofun)
  rw [Token.scanFrom, starts]
  simp only [next, Option.bind_eq_bind, Option.bind_some, scans n (by omega)]
  rfl

def Loose (cs : List Char) : Prop := ∀ c ∈ cs.head?, Token.isWord c = false ∧ c ≠ '.'

theorem Loose.append {cs more : List Char} (first : Loose cs) (second : Loose more) :
    Loose (cs ++ more) := by
  cases cs with
  | nil => exact second
  | cons c cs => exact first

/-- A text that is scanned as some tokens before whatever loosely follows it. -/
structure Spells (text : Bytes) (ts : List Token) : Prop where
  plain : Plain text
  scans : ∀ rest us, Loose rest → Scans rest us → Scans (glyphs text ++ rest) (ts ++ us)

theorem Spells.append {text more : Bytes} {ts us : List Token} (first : Spells text ts)
    (second : Spells more us) (loose : Loose (glyphs more)) : Spells (text ++ more) (ts ++ us) := by
  refine ⟨first.plain.append second.plain, fun rest vs follows scans => ?_⟩
  rw [glyphs_append, List.append_assoc, List.append_assoc]
  exact first.scans _ _ (loose.append follows) (second.scans rest vs follows scans)

/-- A byte that is a symbol of its own, whatever follows. -/
structure Mark (b : UInt8) (s : Symbol) : Prop where
  plain : b < 128 ∧ b ≠ 59
  solid : Letter.isSpace (glyph b) = false
  apart : Token.isWord (glyph b) = false ∧ glyph b ≠ '.'
  next : ∀ rest, Token.next? (glyph b :: rest) = some (.symbol s, rest)

theorem mark_lparen : Mark 40 .lparen := ⟨by decide, rfl, by decide +kernel, fun _ => rfl⟩

theorem mark_rparen : Mark 41 .rparen := ⟨by decide, rfl, by decide +kernel, fun _ => rfl⟩

theorem mark_star : Mark 42 .star := ⟨by decide, rfl, by decide +kernel, fun _ => rfl⟩

theorem mark_comma : Mark 44 .comma := ⟨by decide, rfl, by decide +kernel, fun _ => rfl⟩

theorem mark_minus : Mark 45 .minus := ⟨by decide, rfl, by decide +kernel, fun _ => rfl⟩

theorem Mark.loose {b : UInt8} {s : Symbol} (mark : Mark b s) (text : Bytes) :
    Loose (glyphs (b :: text)) := by
  intro c first
  obtain rfl : glyph b = c := by simpa [glyphs] using first
  exact mark.apart

theorem Spells.mark {b : UInt8} {s : Symbol} (mark : Mark b s) {text : Bytes} {ts : List Token}
    (spells : Spells text ts) : Spells (b :: text) (.symbol s :: ts) := by
  refine ⟨List.forall_mem_cons.mpr ⟨mark.plain, spells.plain⟩, fun rest us follows scans => ?_⟩
  exact .token mark.solid (mark.next _) le_rfl (spells.scans rest us follows scans)

theorem Spells.nil : Spells [] [] := ⟨nofun, fun _ _ _ scans => scans⟩

def starting (c : Char) : Bool :=
  !Token.isDigit c && c != '.' && c != '"' && c != '\'' && !Letter.isSpace c

structure Name (w : Bytes) : Prop where
  plain : Plain w
  starts : ∃ c cs, glyphs w = c :: cs ∧ starting c = true
  words : ∀ c ∈ glyphs w, Token.isWord c = true
  known : Token.ofWord? w = some (.name w)

theorem startsNumber_cons {c : Char} (other : c ≠ '.') (cs : List Char) :
    Token.startsNumber (c :: cs) = Token.isDigit c := by
  unfold Token.startsNumber
  split
  · next same =>
    cases same
    exact absurd rfl other
  · next same =>
    cases same
    rfl
  · next none => cases none

theorem next_word {w : Bytes} (name : Name w) {rest : List Char}
    (stops : ∀ c ∈ rest.head?, Token.isWord c = false) :
    Token.next? (glyphs w ++ rest) = some (.name w, rest) := by
  obtain ⟨c, cs, split, starts⟩ := name.starts
  simp only [starting, Bool.and_eq_true, Bool.not_eq_true', bne_iff_ne] at starts
  obtain ⟨⟨⟨⟨digit, dot⟩, double⟩, single⟩, -⟩ := starts
  obtain ⟨taken, left⟩ := takeWhile_stop name.words stops
  have first : Token.isWord c = true := name.words c (by rw [split]; exact List.mem_cons_self ..)
  rw [split, List.cons_append] at taken left ⊢
  rw [Token.next?, startsNumber_cons dot, digit, if_neg nofun, if_neg (by simp [double, single]),
    if_pos first, taken, left, ← split, encode_glyphs name.plain, name.known]
  rfl

theorem Name.scans {w : Bytes} (name : Name w) {rest : List Char} {ts : List Token}
    (stops : ∀ c ∈ rest.head?, Token.isWord c = false) (scans : Scans rest ts) :
    Scans (glyphs w ++ rest) (.name w :: ts) := by
  have next := next_word name stops
  obtain ⟨c, cs, split, starts⟩ := name.starts
  simp only [starting, Bool.and_eq_true, Bool.not_eq_true'] at starts
  rw [split, List.cons_append] at next ⊢
  exact .token starts.2 next (by rw [List.length_append]; omega) scans

theorem Spells.word {w : Bytes} (name : Name w) : Spells w [.name w] :=
  ⟨name.plain, fun _ _ follows scans => name.scans (fun c first => (follows c first).1) scans⟩

theorem Spells.member {w sel : Bytes} (name : Name w) (part : Name sel) :
    Spells (w ++ 46 :: sel) [.name w, .symbol .dot, .name sel] := by
  have point : Plain [46] := by
    intro b found
    rw [List.mem_singleton.mp found]
    decide
  refine ⟨name.plain.append (point.append part.plain), fun rest us follows scans => ?_⟩
  rw [glyphs_append, List.append_assoc]
  refine name.scans ?_ ?_
  · intro c first
    obtain rfl : '.' = c := Option.some.inj first
    decide +kernel
  · have selected := part.scans (fun c first => (follows c first).1) scans
    obtain ⟨c, cs, split, starts⟩ := part.starts
    simp only [starting, Bool.and_eq_true, Bool.not_eq_true'] at starts
    have next : Token.next? ('.' :: (glyphs sel ++ rest)) =
        some (.symbol .dot, glyphs sel ++ rest) := by
      have number : Token.startsNumber ('.' :: c :: (cs ++ rest)) = false := starts.1.1.1.1
      rw [split, List.cons_append, Token.next?, number]
      rfl
    exact .token rfl next le_rfl selected

theorem isDigit_glyph : ∀ b : UInt8, Token.isDigit (glyph b) = Read.isDigit b := by decide +kernel

theorem isWord_digit : ∀ b : UInt8, Read.isDigit b = true → Token.isWord (glyph b) = true := by
  decide +kernel

theorem plain_digit : ∀ b : UInt8, Read.isDigit b = true → b < 128 ∧ b ≠ 59 := by decide +kernel

theorem isDigit_of_loose {c : Char} (other : Token.isWord c = false) : Token.isDigit c = false := by
  by_contra digit
  have bounds : 48 ≤ c.toNat ∧ c.toNat ≤ 57 := by
    simp only [Token.isDigit, Bool.not_eq_false, Bool.and_eq_true, decide_eq_true_eq, Char.le_def,
      UInt32.le_iff_toNat_le] at digit
    exact digit
  have same : glyph c.toNat.toUInt8 = c := by
    have small : c.toNat.toUInt8.toNat = c.toNat := Nat.mod_eq_of_lt (by omega)
    rw [glyph, small, Char.ofNat_toNat]
  have read : Read.isDigit c.toNat.toUInt8 = true := by
    rw [← isDigit_glyph, same]
    simpa using digit
  rw [← same, isWord_digit _ read] at other
  cases other

inductive Fraction : Bytes → Prop where
  | none : Fraction []
  | point {ds : Bytes} (all : Read.AllDigits ds) : Fraction (46 :: ds)

inductive Tail : Bytes → Prop where
  | none : Tail []
  | bare {ds : Bytes} (some : ds ≠ []) (all : Read.AllDigits ds) : Tail (101 :: ds)
  | signed {sign : UInt8} {ds : Bytes} (is : sign = 43 ∨ sign = 45) (all : Read.AllDigits ds) :
      Tail (101 :: sign :: ds)

def Stops (cs : List Char) : Prop := ∀ c ∈ cs.head?, Token.isDigit c = false

theorem Loose.stops {cs : List Char} (loose : Loose cs) : Stops cs :=
  fun c first => isDigit_of_loose (loose c first).1

theorem takeWhile_digits {ds : Bytes} (all : Read.AllDigits ds) {rest : List Char}
    (stops : Stops rest) : (glyphs ds ++ rest).takeWhile Token.isDigit = glyphs ds := by
  refine (takeWhile_stop ?_ stops).1
  intro c found
  obtain ⟨b, member, rfl⟩ := List.mem_map.mp found
  rw [isDigit_glyph]
  exact all b member

theorem exponent_glyphs {tail : Bytes} (ends : Tail tail) {rest : List Char} (loose : Loose rest) :
    Token.exponent (glyphs tail ++ rest) = glyphs tail := by
  cases ends with
  | none =>
    cases rest with
    | nil => rfl
    | cons c rest =>
      have other : Token.isE c = false := by
        by_contra mark
        simp only [Token.isE, Bool.not_eq_false, Bool.or_eq_true, beq_iff_eq] at mark
        have word := (loose c rfl).1
        rcases mark with rfl | rfl <;> exact absurd word (by decide +kernel)
      simp only [glyphs, List.map_nil, List.nil_append, Token.exponent, other, Bool.false_eq_true,
        if_false]
  | @bare ds some all =>
    obtain ⟨d, ds, rfl⟩ := List.exists_cons_of_ne_nil some
    have digit : Read.isDigit d = true := all d (List.mem_cons_self ..)
    have plus : (glyph d == '+' || glyph d == '-') = false :=
      (by decide +kernel : ∀ b : UInt8, Read.isDigit b = true →
        (glyph b == '+' || glyph b == '-') = false) d digit
    have taken := takeWhile_digits all loose.stops
    show (if glyph d == '+' || glyph d == '-' then _ else
      'e' :: (glyphs (d :: ds) ++ rest).takeWhile Token.isDigit) = _
    rw [plus, taken]
    rfl
  | @signed sign ds is all =>
    have taken := takeWhile_digits all loose.stops
    rcases is with rfl | rfl
    · show 'e' :: '+' :: (glyphs ds ++ rest).takeWhile Token.isDigit = _
      rw [taken]
      rfl
    · show 'e' :: '-' :: (glyphs ds ++ rest).takeWhile Token.isDigit = _
      rw [taken]
      rfl

theorem stops_tail {tail : Bytes} (ends : Tail tail) {rest : List Char} (loose : Loose rest) :
    Stops (glyphs tail ++ rest) := by
  cases ends with
  | none => exact loose.stops
  | bare | signed =>
    intro c first
    obtain rfl : 'e' = c := Option.some.inj first
    rfl

theorem fraction_glyphs {frac tail : Bytes} (fraction : Fraction frac) (ends : Tail tail)
    {rest : List Char} (loose : Loose rest) :
    Token.fraction (glyphs frac ++ (glyphs tail ++ rest)) = glyphs frac := by
  cases fraction with
  | none =>
    cases ends with
    | none =>
      cases rest with
      | nil => rfl
      | cons c rest =>
        have other := (loose c rfl).2
        show Token.fraction (c :: rest) = []
        unfold Token.fraction
        split
        · next same =>
          cases same
          exact absurd rfl other
        · rfl
    | bare | signed => rfl
  | point all =>
    have taken := takeWhile_digits all (stops_tail ends loose)
    exact congrArg ('.' :: ·) taken

theorem stops_fraction {frac tail : Bytes} (fraction : Fraction frac) (ends : Tail tail)
    {rest : List Char} (loose : Loose rest) : Stops (glyphs frac ++ (glyphs tail ++ rest)) := by
  cases fraction with
  | none => exact stops_tail ends loose
  | point =>
    intro c first
    obtain rfl : '.' = c := Option.some.inj first
    rfl

theorem numeral_glyphs {whole frac tail : Bytes} (all : Read.AllDigits whole)
    (fraction : Fraction frac) (ends : Tail tail) {rest : List Char} (loose : Loose rest) :
    Token.numeral (glyphs (whole ++ frac ++ tail) ++ rest) = glyphs (whole ++ frac ++ tail) := by
  have taken := takeWhile_digits all (stops_fraction fraction ends loose)
  have part := fraction_glyphs fraction ends loose
  have behind := exponent_glyphs ends loose
  simp only [glyphs_append, List.append_assoc]
  unfold Token.numeral
  dsimp only
  rw [taken, List.drop_left, part, ← List.drop_drop, List.drop_left, List.drop_left, behind,
    List.append_assoc]

theorem plain_digits {ds : Bytes} (all : Read.AllDigits ds) : Plain ds :=
  fun b found => plain_digit b (all b found)

theorem Fraction.plain {frac : Bytes} (fraction : Fraction frac) : Plain frac := by
  cases fraction with
  | none => nofun
  | point all => exact List.forall_mem_cons.mpr ⟨by decide, plain_digits all⟩

theorem Tail.plain {tail : Bytes} (ends : Tail tail) : Plain tail := by
  cases ends with
  | none => nofun
  | bare _ all => exact List.forall_mem_cons.mpr ⟨by decide, plain_digits all⟩
  | signed is all =>
    refine List.forall_mem_cons.mpr ⟨by decide, List.forall_mem_cons.mpr ⟨?_, plain_digits all⟩⟩
    rcases is with rfl | rfl <;> decide

theorem next_number {c : Char} (digit : Token.isDigit c = true) (cs : List Char) :
    Token.next? (c :: cs) = Token.number? (c :: cs) := by
  have other : c ≠ '.' := by
    rintro rfl
    cases digit
  rw [Token.next?, startsNumber_cons other, if_pos digit]

theorem Spells.number {whole frac tail : Bytes} {t : Token} (all : Read.AllDigits whole)
    (some : whole ≠ []) (fraction : Fraction frac) (ends : Tail tail)
    (read : Token.ofNumeral? (glyphs (whole ++ frac ++ tail)) = .some t) :
    Spells (whole ++ frac ++ tail) [t] := by
  refine ⟨((plain_digits all).append fraction.plain).append ends.plain, ?_⟩
  intro rest us follows scans
  have longest := numeral_glyphs all fraction ends follows
  obtain ⟨b, whole, rfl⟩ := List.exists_cons_of_ne_nil some
  have digit : Token.isDigit (glyph b) = true := by
    rw [isDigit_glyph]
    exact all b (List.mem_cons_self ..)
  have ends : ¬ (rest.head?.any Token.isWord = true) := by
    cases rest with
    | nil => nofun
    | cons c rest => simpa using (follows c rfl).1
  have taken : Token.number? (glyphs (b :: whole ++ frac ++ tail) ++ rest) = .some (t, rest) := by
    rw [Token.number?, longest, List.drop_left, if_neg ends, read]
    rfl
  have solid : Letter.isSpace (glyph b) = false :=
    (by decide +kernel : ∀ b : UInt8, Token.isDigit (glyph b) = true →
      Letter.isSpace (glyph b) = false) b digit
  refine .token solid ((next_number digit _).trans taken) ?_ scans
  show rest.length ≤ (glyphs (whole ++ frac ++ tail) ++ rest).length
  rw [List.length_append]
  omega

theorem ofNumeral_whole {ds : Bytes} (all : Read.AllDigits ds) (some : ds ≠ [])
    (small : Decimal.numeral ds < 2 ^ 53) :
    Token.ofNumeral? (glyphs ds) = .some (.whole (Decimal.numeral ds)) := by
  have digits : (glyphs ds).all Token.isDigit = true := by
    rw [glyphs, List.all_map, List.all_eq_true]
    intro b found
    exact (isDigit_glyph b).trans (all b found)
  have natural : Integer.natural? ds = .some (Decimal.numeral ds) := by
    have filled : (ds.isEmpty || !ds.all Integer.isDigit) = false := by
      have every : ds.all Integer.isDigit = true := List.all_eq_true.mpr all
      simp [some, every]
    rw [Integer.natural?, filled]
    rfl
  have range : Integer.inRange? (Decimal.numeral ds) = .some (Decimal.numeral ds : Int) := by
    have low : Integer.least ≤ Decimal.numeral ds := by
      show -((2 ^ 63 : Nat) : Int) ≤ _
      omega
    have high : (Decimal.numeral ds : Int) ≤ Integer.greatest := by
      show _ ≤ ((2 ^ 63 : Nat) : Int) - 1
      omega
    simp [Integer.inRange?, low, high]
  have whole : Integer.read? ds = .some (Decimal.numeral ds : Int) := by
    unfold Integer.read?
    split
    · exact absurd (all 45 (List.mem_cons_self ..)) (by decide)
    · exact absurd (all 43 (List.mem_cons_self ..)) (by decide)
    · rw [natural]
      exact range
  rw [Token.ofNumeral?, if_pos digits, encode_glyphs (plain_digits all), whole]
  rfl

theorem ofNumeral_float {text : Bytes} {v : Float} (plain : Plain text)
    (other : ∃ b ∈ text, Read.isDigit b = false) (read : Read.double text = ⟨v, none⟩) :
    Token.ofNumeral? (glyphs text) = .some (.float v) := by
  obtain ⟨b, found, other⟩ := other
  have digits : ¬ (glyphs text).all Token.isDigit = true := by
    intro all
    have digit := List.all_eq_true.mp all (glyph b) (List.mem_map_of_mem found)
    rw [isDigit_glyph, other] at digit
    cases digit
  rw [Token.ofNumeral?, if_neg digits, encode_glyphs plain, read]
  rfl

theorem Spells.scan {text : Bytes} {ts : List Token} (spells : Spells text ts) :
    Token.scan? text = some ts := by
  have whole := spells.scans [] [] nofun .nil
  rw [List.append_nil, List.append_nil] at whole
  rw [Token.scan?, chars_plain spells.plain]
  exact whole _ (Nat.lt_succ_self _)

end DistanceField.Probe
