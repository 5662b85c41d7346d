import DistanceField.Proofs.Number.Reading
import DistanceField.Source.Lexer

/-! What the scanner makes of words, numbers and marks, and of texts that are put together. -/
namespace DistanceField

namespace Lexer

def Word (w : Bytes) : Prop := w ≠ [] ∧ ∀ b ∈ w, isLetter b = true

/-- Digits, and behind a point some more. -/
def Numeral (w : Bytes) : Prop :=
  ∃ whole part, Read.AllDigits whole ∧ Read.AllDigits part ∧ whole ≠ [] ∧
    w = Read.spelled whole part

/-- Text that does not go on with a word or a number. -/
def Loose (rest : Bytes) : Prop :=
  ∀ b ∈ rest.head?, isLetter b = false ∧ isDigit b = false ∧ b ≠ 46

theorem loose_nil : Loose [] := nofun

theorem loose_cons {b : UInt8} (loose : isLetter b = false ∧ isDigit b = false ∧ b ≠ 46)
    (rest : Bytes) : Loose (b :: rest) := by
  intro c found
  obtain rfl : b = c := by simpa using found
  exact loose

theorem Loose.append {text rest : Bytes} (first : Loose text) (second : Loose rest) :
    Loose (text ++ rest) := by
  cases text with
  | nil => exact second
  | cons b text => exact loose_cons (first b rfl) _

theorem run_append {p : UInt8 → Bool} {w : Bytes} (all : ∀ b ∈ w, p b = true) (rest : Bytes) :
    run p (w ++ rest) = w.length + run p rest := by
  rw [run, List.takeWhile_append_of_pos all, List.length_append, run]

theorem run_digits {ds : Bytes} (all : Read.AllDigits ds) (rest : Bytes) :
    run isDigit (ds ++ rest) = ds.length + run isDigit rest :=
  run_append (p := isDigit) all rest

theorem run_stop {p : UInt8 → Bool} {rest : Bytes} (stops : ∀ b ∈ rest.head?, p b = false) :
    run p rest = 0 := by
  cases rest with
  | nil => rfl
  | cons b rest => rw [run, List.takeWhile_cons_of_neg (by rw [stops b rfl]; nofun), List.length_nil]

theorem take_run (p : UInt8 → Bool) (rest : Bytes) : ∀ b ∈ rest.take (run p rest), p b = true := by
  intro b found
  have same : rest.takeWhile p = rest.take (run p rest) :=
    List.prefix_iff_eq_take.mp (List.takeWhile_prefix p)
  exact List.mem_takeWhile_imp (same ▸ found)

theorem skipBlanks_blank {b : UInt8} (blank : Bytes.isBlank b = true) (pos : Nat) (rest : Bytes) :
    skipBlanks ⟨pos, b :: rest⟩ = skipBlanks ⟨pos + 1, rest⟩ := by
  have count : run Bytes.isBlank (b :: rest) = run Bytes.isBlank rest + 1 := by
    rw [run, List.takeWhile_cons_of_pos blank, List.length_cons, run]
  simp only [skipBlanks, count, List.drop_succ_cons]
  congr 1
  omega

theorem skipBlanks_solid {b : UInt8} (solid : Bytes.isBlank b = false) (pos : Nat) (rest : Bytes) :
    skipBlanks ⟨pos, b :: rest⟩ = ⟨pos, b :: rest⟩ := by
  have count : run Bytes.isBlank (b :: rest) = 0 := run_stop (by simpa using solid)
  simp only [skipBlanks, count, List.drop_zero, Nat.add_zero]

theorem scan_end {l : Lexer} (ends : l.skipBlanks.rest = []) :
    l.scan.1 = .ok [Token.finish l.skipBlanks.pos] := by
  rw [scan]
  split
  · rfl
  · simp_all

theorem scan_step {l : Lexer} {b : UInt8} {rest : Bytes} (starts : l.skipBlanks.rest = b :: rest) :
    l.scan.1 = match (token l.skipBlanks.pos b rest).1 with
      | .error c => .error c
      | .ok t => (token l.skipBlanks.pos b rest).2.scan.1.map (t :: ·) := by
  rw [scan]
  split
  · simp_all
  · next c more same =>
    obtain ⟨rfl, rfl⟩ : b = c ∧ rest = more := by simpa [starts] using same
    cases token l.skipBlanks.pos b rest with
    | mk found behind => cases found <;> rfl

theorem scan_blank {b : UInt8} (blank : Bytes.isBlank b = true) (pos : Nat) (rest : Bytes) :
    (scan ⟨pos, b :: rest⟩).1 = (scan ⟨pos + 1, rest⟩).1 := by
  have same := skipBlanks_blank blank pos rest
  cases ahead : (skipBlanks ⟨pos + 1, rest⟩).rest with
  | nil => rw [scan_end ahead, scan_end (by rw [same, ahead]), same]
  | cons c more => rw [scan_step ahead, scan_step (by rw [same, ahead]), same]

/-- A token as it stands in a text: names are words, numbers are numerals. -/
structure Lexeme (t : Token) : Prop where
  proper : t.kind ≠ .eof
  named : t.kind = .identifier → Word t.value
  counted : t.kind = .number → Numeral t.value

theorem word_take {b : UInt8} (letter : isLetter b = true) (rest : Bytes) :
    Word (b :: rest.take (run isLetter rest)) := by
  refine ⟨nofun, ?_⟩
  intro c found
  rcases List.mem_cons.mp found with rfl | later
  · exact letter
  · exact take_run _ _ c later

theorem allDigits_take {b : UInt8} (digit : isDigit b = true) (rest : Bytes) :
    Read.AllDigits (b :: rest.take (run isDigit rest)) := by
  intro c found
  rcases List.mem_cons.mp found with rfl | later
  · exact digit
  · exact take_run _ _ c later

theorem isDigit_of_classify {b : UInt8} (digit : classify b = .digit) : isDigit b = true := by
  by_contra other
  simp only [classify, if_neg other] at digit
  split at digit
  · cases digit
  · split at digit <;> cases digit

theorem isLetter_of_classify {b : UInt8} (letter : classify b = .letter) : isLetter b = true := by
  unfold classify at letter
  split at letter
  · cases letter
  split at letter
  · assumption
  · split at letter <;> cases letter

theorem numeral_digits {b : UInt8} {rest : Bytes} {k : Kind} {n : Nat}
    (digit : classify b = .digit) (found : lexeme b rest = (.ok k, n)) :
    k = .number ∧ Numeral (b :: rest.take n) := by
  have whole := allDigits_take (isDigit_of_classify digit) rest
  rw [lexeme, digit] at found
  dsimp only at found
  split at found
  · next more point =>
    split at found
    · cases found
    · next some =>
      cases found
      refine ⟨rfl, _, _, whole, take_run isDigit more, List.cons_ne_nil _ _, ?_⟩
      have filled : (more.take (run isDigit more)).isEmpty = false := by
        cases more with
        | nil => exact absurd rfl some
        | cons c more =>
          rw [beq_iff_eq] at some
          obtain ⟨m, count⟩ := Nat.exists_eq_succ_of_ne_zero some
          rw [count]
          rfl
      rw [Read.spelled, filled, Nat.add_assoc, List.take_add, point, Nat.add_comm 1,
        List.take_succ_cons]
      rfl
  · cases found
    exact ⟨rfl, _, [], whole, List.forall_mem_nil _, List.cons_ne_nil _ _, rfl⟩

theorem mark_of_classify {b : UInt8} {k : Kind} (mark : classify b = .mark k) :
    Kind.ofByte? b = some k ∧ isDigit b = false ∧ isLetter b = false := by
  unfold classify at mark
  split at mark
  · cases mark
  · next digit =>
    split at mark
    · cases mark
    · next letter =>
      split at mark
      · next found =>
        cases mark
        exact ⟨found, by simpa using digit, by simpa using letter⟩
      · cases mark

def marks : List (UInt8 × Kind) :=
  [(43, .plus), (45, .minus), (42, .star), (47, .slash), (44, .comma), (40, .lparen), (41, .rparen),
    (123, .lbrace), (125, .rbrace), (61, .assign)]

theorem mem_marks {b : UInt8} {k : Kind} (mark : Kind.ofByte? b = some k) : (b, k) ∈ marks := by
  have each : ∀ b, ∀ k ∈ Kind.ofByte? b, (b, k) ∈ marks := by decide +kernel
  exact each b k mark

theorem ofByte?_plain {b : UInt8} {k : Kind} (mark : Kind.ofByte? b = some k) :
    k ≠ .eof ∧ k ≠ .identifier ∧ k ≠ .number ∧ Bytes.isBlank b = false ∧ b ≠ 46 := by
  have plain : ∀ p ∈ marks, p.2 ≠ .eof ∧ p.2 ≠ .identifier ∧ p.2 ≠ .number ∧
      Bytes.isBlank p.1 = false ∧ p.1 ≠ 46 := by decide
  exact plain (b, k) (mem_marks mark)

theorem lexeme_of_token {pos : Nat} {b : UInt8} {rest : Bytes} {t : Token}
    (found : (token pos b rest).1 = .ok t) : Lexeme t := by
  rw [token] at found
  dsimp only at found
  cases is : lexeme b rest with
  | mk outcome n =>
    rw [is] at found
    cases outcome with
    | error trouble => cases found
    | ok k =>
      cases found
      cases of : classify b with
      | digit =>
        obtain ⟨rfl, numeral⟩ := numeral_digits of is
        exact ⟨by simp, by simp, fun _ => numeral⟩
      | letter =>
        rw [lexeme, of] at is
        cases is
        exact ⟨by simp, fun _ => word_take (isLetter_of_classify of) rest, by simp⟩
      | mark j =>
        rw [lexeme, of] at is
        cases is
        obtain ⟨eof, identifier, number, -⟩ := ofByte?_plain (mark_of_classify of).1
        exact ⟨eof, fun same => absurd same identifier, fun same => absurd same number⟩
      | unknown =>
        rw [lexeme, of] at is
        cases is

/-- All tokens of a text are lexemes, up to the end of input. -/
theorem scan_lexemes {l : Lexer} {ts : List Token} (read : l.scan.1 = .ok ts) :
    ∃ us pos, ts = us ++ [Token.finish pos] ∧ ∀ t ∈ us, Lexeme t := by
  -- on the length of what is left, as a token may take several bytes
  obtain ⟨n, size⟩ : ∃ n, l.rest.length = n := ⟨_, rfl⟩
  induction n using Nat.strong_induction_on generalizing l ts with
  | _ n ih =>
    cases ahead : l.skipBlanks.rest with
    | nil =>
      rw [scan_end ahead] at read
      cases read
      exact ⟨[], _, rfl, nofun⟩
    | cons b rest =>
      rw [scan_step ahead] at read
      cases found : (token l.skipBlanks.pos b rest).1 with
      | error c =>
        rw [found] at read
        cases read
      | ok t =>
        rw [found] at read
        dsimp only at read
        cases more : (token l.skipBlanks.pos b rest).2.scan.1 with
        | error c =>
          rw [more] at read
          cases read
        | ok us =>
          rw [more] at read
          cases read
          have shorter : (token l.skipBlanks.pos b rest).2.rest.length < n := by
            have behind := length_token_le l.skipBlanks.pos b rest
            have skipped := length_skipBlanks_le l
            rw [ahead, List.length_cons] at skipped
            omega
          obtain ⟨vs, pos, rfl, all⟩ := ih _ shorter more rfl
          exact ⟨t :: vs, pos, rfl, List.forall_mem_cons.mpr ⟨lexeme_of_token found, all⟩⟩

theorem scan_lexeme {b : UInt8} {w rest : Bytes} {k : Kind} (solid : Bytes.isBlank b = false)
    (found : lexeme b (w ++ rest) = (.ok k, w.length)) (pos : Nat) :
    ∃ t pos', t.kind = k ∧ t.value = b :: w ∧
      (scan ⟨pos, b :: w ++ rest⟩).1 = (scan ⟨pos', rest⟩).1.map (t :: ·) := by
  refine ⟨⟨k, b :: w, ⟨pos, pos + w.length + 1⟩⟩, pos + w.length + 1, rfl, rfl, ?_⟩
  have here := skipBlanks_solid solid pos (w ++ rest)
  rw [List.cons_append, scan_step (l := ⟨pos, b :: (w ++ rest)⟩) (by rw [here]), here]
  simp only [token, found, List.take_left, List.drop_left]

theorem isDigit_of_letter {b : UInt8} (letter : isLetter b = true) : isDigit b = false := by
  by_contra digit
  simp only [isLetter, isDigit, UInt8.le_iff_toNat_le, Bool.or_eq_true, Bool.and_eq_true,
    decide_eq_true_eq, UInt8.toNat_ofNat, Bool.not_eq_false] at letter digit
  omega

theorem classify_letter {b : UInt8} (letter : isLetter b = true) : classify b = .letter := by
  rw [classify, isDigit_of_letter letter, letter]
  rfl

theorem classify_digit {b : UInt8} (digit : isDigit b = true) : classify b = .digit := by
  rw [classify, digit]
  rfl

theorem lexeme_word {b : UInt8} {w rest : Bytes} (word : Word (b :: w))
    (stops : ∀ c ∈ rest.head?, isLetter c = false) :
    lexeme b (w ++ rest) = (.ok .identifier, w.length) := by
  obtain ⟨-, all⟩ := word
  obtain ⟨letter, later⟩ := List.forall_mem_cons.mp all
  rw [lexeme, classify_letter letter, run_append later, run_stop stops]
  rfl

theorem lexeme_point {b : UInt8} {ds : Bytes} (digit : isDigit b = true) (all : Read.AllDigits ds)
    (more : Bytes) :
    lexeme b (ds ++ 46 :: more) = if run isDigit more == 0 then (.error .bareDot, ds.length + 1)
      else (.ok .number, ds.length + 1 + run isDigit more) := by
  have point : run isDigit (46 :: more) = 0 := run_stop (by simp; rfl)
  rw [lexeme, classify_digit digit]
  dsimp only
  rw [run_digits all, point, Nat.add_zero, List.drop_left]
  rfl

theorem lexeme_numeral {b : UInt8} {w rest : Bytes} (numeral : Numeral (b :: w))
    (stops : ∀ c ∈ rest.head?, isDigit c = false) (pointless : ∀ c ∈ rest.head?, c ≠ 46) :
    lexeme b (w ++ rest) = (.ok .number, w.length) := by
  obtain ⟨whole, part, all, digits, some, same⟩ := numeral
  obtain ⟨c, whole, rfl⟩ := List.exists_cons_of_ne_nil some
  obtain ⟨digit, later⟩ := List.forall_mem_cons.mp all
  cases part with
  | nil =>
    obtain ⟨rfl, rfl⟩ : b = c ∧ w = whole := by simpa [Read.spelled] using same
    rw [lexeme, classify_digit digit]
    dsimp only
    rw [run_digits later, run_stop stops, Nat.add_zero, List.drop_left]
    split
    · next more => exact absurd rfl (pointless 46 rfl)
    · rfl
  | cons d part =>
    obtain ⟨rfl, rfl⟩ : b = c ∧ w = whole ++ 46 :: d :: part := by simpa [Read.spelled] using same
    rw [List.append_assoc, List.cons_append, lexeme_point digit later, run_digits digits,
      run_stop stops, if_neg (by simp)]
    simp only [List.length_cons, List.length_append]
    congr 1
    omega

theorem lexeme_mark {b : UInt8} {k : Kind} (mark : classify b = .mark k) (rest : Bytes) :
    lexeme b rest = (.ok k, 0) := by
  rw [lexeme, mark]

/-- A text whose tokens have a property, wherever it stands and whatever loosely follows it. -/
def Spells (text : Bytes) (P : List Token → Prop) : Prop :=
  ∀ pos rest, Loose rest → ∃ us pos', P us ∧
    (scan ⟨pos, text ++ rest⟩).1 = (scan ⟨pos', rest⟩).1.map (us ++ ·)

variable {text more : Bytes} {P Q R : List Token → Prop}

theorem Spells.nil (none : P []) : Spells [] P := by
  intro pos rest _
  refine ⟨[], pos, none, ?_⟩
  rw [List.nil_append]
  cases (scan ⟨pos, rest⟩).1 <;> rfl

theorem Spells.mono (spells : Spells text P) (into : ∀ us, P us → Q us) : Spells text Q := by
  intro pos rest loose
  obtain ⟨us, pos', holds, scanned⟩ := spells pos rest loose
  exact ⟨us, pos', into us holds, scanned⟩

theorem Spells.blank {b : UInt8} (blank : Bytes.isBlank b = true) (spells : Spells text P) :
    Spells (b :: text) P := by
  intro pos rest loose
  rw [List.cons_append, scan_blank blank]
  exact spells (pos + 1) rest loose

theorem Spells.mark {b : UInt8} {k : Kind} (is : classify b = .mark k) (spells : Spells text P)
    (into : ∀ t us, t.kind = k → P us → Q (t :: us)) : Spells (b :: text) Q := by
  intro pos rest loose
  obtain ⟨-, -, -, solid, -⟩ := ofByte?_plain (mark_of_classify is).1
  obtain ⟨t, place, kind, -, first⟩ :=
    @scan_lexeme b [] (text ++ rest) k solid (lexeme_mark is _) pos
  obtain ⟨us, pos', holds, scanned⟩ := spells place rest loose
  refine ⟨t :: us, pos', into t us kind holds, ?_⟩
  rw [List.cons_append, show b :: (text ++ rest) = [b] ++ (text ++ rest) from rfl, first, scanned]
  cases (scan ⟨pos', rest⟩).1 <;> rfl

theorem Spells.append (first : Spells text P) (second : Spells more Q) (loose : Loose more)
    (into : ∀ us vs, P us → Q vs → R (us ++ vs)) : Spells (text ++ more) R := by
  intro pos rest follows
  obtain ⟨us, place, left, before⟩ := first pos (more ++ rest) (loose.append follows)
  obtain ⟨vs, pos', right, behind⟩ := second place rest follows
  refine ⟨us ++ vs, pos', into us vs left right, ?_⟩
  rw [List.append_assoc, before, behind]
  cases (scan ⟨pos', rest⟩).1 with
  | error c => rfl
  | ok ts => simp only [Except.map, List.append_assoc]

theorem loose_mark {b : UInt8} {k : Kind} (is : classify b = .mark k) (rest : Bytes) :
    Loose (b :: rest) := by
  obtain ⟨mark, digit, letter⟩ := mark_of_classify is
  exact loose_cons ⟨letter, digit, (ofByte?_plain mark).2.2.2.2⟩ rest

theorem loose_blank {b : UInt8} (blank : Bytes.isBlank b = true) (rest : Bytes) :
    Loose (b :: rest) := by
  refine loose_cons ?_ rest
  simp only [Bytes.isBlank, Bool.or_eq_true, beq_iff_eq] at blank
  rcases blank with ((rfl | rfl) | rfl) | rfl <;> decide

theorem Spells.blanks {gap : Bytes} (all : ∀ b ∈ gap, Bytes.isBlank b = true)
    (spells : Spells text P) : Spells (gap ++ text) P := by
  induction gap with
  | nil => exact spells
  | cons b gap ih =>
    obtain ⟨blank, later⟩ := List.forall_mem_cons.mp all
    exact .blank blank (ih later)

theorem Spells.single {b : UInt8} {k : Kind} (is : classify b = .mark k) :
    Spells [b] fun us => ∃ t, us = [t] ∧ t.kind = k :=
  .mark is (.nil (P := (· = [])) rfl) fun t us kind none => ⟨t, by rw [none], kind⟩

theorem Spells.close {b : UInt8} {k : Kind} (is : classify b = .mark k) (spells : Spells text P)
    (into : ∀ us t, P us → t.kind = k → Q (us ++ [t])) : Spells (text ++ [b]) Q := by
  refine .append spells (.single is) (loose_mark is []) ?_
  rintro us vs holds ⟨t, rfl, kind⟩
  exact into us t holds kind

theorem Spells.token {w : Bytes} {k : Kind} (some : w ≠ [])
    (solid : ∀ b ∈ w.head?, Bytes.isBlank b = false)
    (found : ∀ b v rest, w = b :: v → Loose rest → lexeme b (v ++ rest) = (.ok k, v.length))
    (into : ∀ t : Token, t.kind = k → t.value = w → P [t]) : Spells w P := by
  intro pos rest loose
  obtain ⟨b, v, rfl⟩ := List.exists_cons_of_ne_nil some
  obtain ⟨t, pos', kind, value, scanned⟩ :=
    scan_lexeme (solid b rfl) (found b v rest rfl loose) pos
  exact ⟨[t], pos', into t kind value, scanned⟩

theorem isBlank_of_letter {b : UInt8} (letter : isLetter b = true) : Bytes.isBlank b = false := by
  by_contra blank
  simp only [Bytes.isBlank, Bool.not_eq_false, Bool.or_eq_true, beq_iff_eq] at blank
  rcases blank with ((rfl | rfl) | rfl) | rfl <;> cases letter

theorem isBlank_of_digit {b : UInt8} (digit : isDigit b = true) : Bytes.isBlank b = false := by
  by_contra blank
  simp only [Bytes.isBlank, Bool.not_eq_false, Bool.or_eq_true, beq_iff_eq] at blank
  rcases blank with ((rfl | rfl) | rfl) | rfl <;> cases digit

theorem Spells.word {w : Bytes} (word : Word w)
    (into : ∀ t : Token, t.kind = .identifier → t.value = w → P [t]) : Spells w P := by
  refine Spells.token word.1 ?_ ?_ into
  · intro b first
    exact isBlank_of_letter (word.2 b (List.mem_of_mem_head? first))
  · rintro b v rest rfl loose
    exact lexeme_word word fun c next => (loose c next).1

theorem numeral_starts {w : Bytes} (numeral : Numeral w) :
    ∃ b rest, w = b :: rest ∧ isDigit b = true := by
  obtain ⟨whole, part, all, -, some, rfl⟩ := numeral
  obtain ⟨b, whole, rfl⟩ := List.exists_cons_of_ne_nil some
  unfold Read.spelled
  split
  · exact ⟨b, _, rfl, all b (List.mem_cons_self ..)⟩
  · exact ⟨b, _, rfl, all b (List.mem_cons_self ..)⟩

theorem Spells.numeral {w : Bytes} (numeral : Numeral w)
    (into : ∀ t : Token, t.kind = .number → t.value = w → P [t]) : Spells w P := by
  obtain ⟨b, rest, starts, digit⟩ := numeral_starts numeral
  refine Spells.token (starts ▸ nofun) ?_ ?_ into
  · intro c first
    obtain rfl : b = c := by simpa [starts] using first
    exact isBlank_of_digit digit
  · rintro c v rest rfl loose
    exact lexeme_numeral numeral (fun c next => (loose c next).2.1) fun c next => (loose c next).2.2

theorem Spells.scan (spells : Spells text P) :
    ∃ us pos, P us ∧ DistanceField.scan text = .ok (us ++ [Token.finish pos]) := by
  obtain ⟨us, pos, holds, scanned⟩ := spells 0 [] loose_nil
  refine ⟨us, pos, holds, ?_⟩
  rw [List.append_nil, scan_end (l := ⟨pos, []⟩) rfl] at scanned
  exact scanned

end Lexer

end DistanceField
