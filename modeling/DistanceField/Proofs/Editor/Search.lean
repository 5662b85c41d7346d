import DistanceField.Editor.Word
import DistanceField.Proofs.Source.Fronts
import DistanceField.Proofs.Source.Pairs

/-! How the editor goes over the bytes of tokens: back to an open parenthesis, back over the name
before it, and forward through the arguments behind it. -/
namespace DistanceField.Editor

open Grammar Lexer

/-- Bytes that do not end or turn the search for an open parenthesis. -/
def Silent (b : UInt8) : Prop :=
  ∀ k ∈ Kind.ofByte? b, k ∉ [Kind.lparen, .rparen, .lbrace, .rbrace]

section Searching

variable {pos depth : Nat} {text rest w : Bytes} {b : UInt8} {k : Kind} {us : List Token}

theorem silent_of_plain (plain : Kind.ofByte? b = none) : Silent b := by
  rw [Silent, plain]
  simp

theorem silent_of_blank (blank : Bytes.isBlank b = true) : Silent b :=
  silent_of_plain (blank_plain b blank).2

theorem silent_of_written (written : Written k w) (other : k ∉ [Kind.lparen, .rparen, .lbrace, .rbrace]) :
    ∀ b ∈ w, Silent b := by
  intro b found
  rcases (written_byte written found).2 with plain | ⟨-, mark⟩
  · exact silent_of_plain plain
  · intro j is
    rw [mark] at is
    rwa [← Option.some.inj is]

theorem beforeOpen?_silent (silent : ∀ b ∈ text, Silent b) :
    beforeOpen? depth (text ++ rest) = beforeOpen? depth rest := by
  have other : ∀ b : UInt8, (∀ k ∈ Kind.ofByte? b, k ∉ [Kind.lparen, .rparen, .lbrace, .rbrace]) →
      (b == 41) = false ∧ (b == 40) = false ∧ (b == 123 || b == 125) = false := by decide +kernel
  induction text with
  | nil => rfl
  | cons b text ih =>
    obtain ⟨here, later⟩ := List.forall_mem_cons.mp silent
    obtain ⟨closes, opens, braces⟩ := other b here
    rw [List.cons_append, beforeOpen?.eq_def]
    simp only [closes, opens, braces, Bool.false_eq_true, if_false]
    exact ih later

theorem beforeOpen?_close : beforeOpen? depth (41 :: rest) = beforeOpen? (depth + 1) rest := rfl

theorem beforeOpen?_open : beforeOpen? (depth + 1) (40 :: rest) = beforeOpen? depth rest := rfl

theorem beforeOpen?_brace (brace : k ∈ [Kind.lbrace, .rbrace]) (written : Written k w) :
    beforeOpen? depth (w.reverse ++ rest) = none := by
  simp only [List.mem_cons, List.not_mem_nil, or_false] at brace
  rcases brace with rfl | rfl
  · rw [written_single written (b := 123) rfl]
    rfl
  · rw [written_single written (b := 125) rfl]
    rfl

theorem beforeOpen?_matched (front : Front pos text us) (matched : Matched us) :
    beforeOpen? depth (text.reverse ++ rest) = beforeOpen? depth rest ∨
      (∃ t ∈ us, t.kind ∈ [Kind.lbrace, .rbrace]) ∧
        beforeOpen? depth (text.reverse ++ rest) = none := by
  have blank {gap : Bytes} (blanks : ∀ b ∈ gap, Bytes.isBlank b = true) {d : Nat} {rest : Bytes} :
      beforeOpen? d (gap.reverse ++ rest) = beforeOpen? d rest :=
    beforeOpen?_silent fun b found => silent_of_blank (blanks b (List.mem_reverse.mp found))
  induction matched generalizing pos text depth rest with
  | none => exact .inl (blank front.blanks)
  | @other t us plain _ ih =>
    obtain ⟨gap, more, rfl, blanks, written, -, front⟩ := front.cons
    rw [List.reverse_append, List.reverse_append, List.append_assoc, List.append_assoc]
    rcases ih front with passes | ⟨⟨u, found, brace⟩, ends⟩
    · rw [passes]
      by_cases brace : t.kind ∈ [Kind.lbrace, .rbrace]
      · refine .inr ⟨⟨t, List.mem_cons_self .., brace⟩, ?_⟩
        exact beforeOpen?_brace brace written
      · left
        have other : t.kind ∉ [Kind.lparen, .rparen, .lbrace, .rbrace] := by
          simp only [List.mem_cons, List.not_mem_nil, or_false, not_or] at plain brace ⊢
          exact ⟨plain.1, plain.2, brace⟩
        rw [beforeOpen?_silent fun b found =>
          silent_of_written written other b (List.mem_reverse.mp found), blank blanks]
    · exact .inr ⟨⟨u, List.mem_cons_of_mem _ found, brace⟩, ends⟩
  | @pair l r inner us opens matched closes _ ihi ihr =>
    obtain ⟨gap, more, rfl, blanks, written, -, front⟩ := front.cons
    obtain ⟨first, second, rfl, within, behind⟩ := front.append
    obtain ⟨gap', more, rfl, blanks', written', -, behind⟩ := behind.cons
    rw [opens] at written
    rw [closes] at written'
    rw [written_single written (b := 40) rfl, written_single written' (b := 41) rfl]
    have order : (gap ++ ([40] ++ (first ++ (gap' ++ ([41] ++ more))))).reverse ++ rest =
        more.reverse ++ 41 :: (gap'.reverse ++ (first.reverse ++ 40 :: (gap.reverse ++ rest))) := by
      simp
    rw [order]
    rcases ihr behind with passes | ⟨⟨u, found, brace⟩, ends⟩
    · rw [passes, beforeOpen?_close, blank blanks']
      rcases ihi within with passes | ⟨⟨u, found, brace⟩, ends⟩
      · rw [passes, beforeOpen?_open, blank blanks]
        exact .inl rfl
      · exact .inr ⟨⟨u, List.mem_cons_of_mem _ (List.mem_append_left _ found), brace⟩, ends⟩
    · refine .inr ⟨⟨u, ?_, brace⟩, ends⟩
      exact List.mem_cons_of_mem _ (List.mem_append_right _ (List.mem_cons_of_mem _ found))

end Searching

def isNameByte (b : UInt8) : Bool := isNamePiece (Char.ofNat b.toNat, [b], true)

def isSpaceByte (b : UInt8) : Bool := isBlankPiece (Char.ofNat b.toNat, [b], true)

section Naming

variable {pos : Nat} {text before gap w : Bytes} {t : Token} {us : List Token}

theorem letter_named : ∀ b : UInt8, isLetter b = true →
    isNameByte b = true ∧ isSpaceByte b = false := by decide +kernel

theorem mark_unnamed (b : UInt8) (mark : (Kind.ofByte? b).isSome = true) :
    isNameByte b = false ∧ isSpaceByte b = false := by
  have each : ∀ p ∈ Lexer.marks, isNameByte p.1 = false ∧ isSpaceByte p.1 = false := by decide +kernel
  obtain ⟨k, is⟩ := Option.isSome_iff_exists.mp mark
  exact each (b, k) (Lexer.mem_marks is)

theorem blank_unnamed : ∀ b : UInt8, Bytes.isBlank b = true →
    isNameByte b = false ∧ isSpaceByte b = true := by decide +kernel

theorem nameBefore_small (small : ∀ b ∈ text, b < 128) :
    nameBefore text = ((text.reverse.dropWhile isSpaceByte).takeWhile isNameByte).reverse := by
  rw [nameBefore, Utf8.pieces_single small, ← List.map_reverse, List.dropWhile_map,
    List.takeWhile_map, ← List.map_reverse, List.flatMap_map]
  exact List.flatMap_singleton' _

theorem dropWhile_stop {p : UInt8 → Bool} (stops : ∀ b ∈ text.head?, p b = false) :
    text.dropWhile p = text := by
  cases text with
  | nil => rfl
  | cons b text => rw [List.dropWhile_cons_of_neg (by simp [stops b rfl])]

theorem nameBefore_eq (small : ∀ b ∈ before ++ (w ++ gap), b < 128)
    (blanks : ∀ b ∈ gap, Bytes.isBlank b = true) (word : ∀ b ∈ w, isLetter b = true)
    (ends : ∀ b ∈ before.getLast?, isNameByte b = false ∧ (w = [] → isSpaceByte b = false)) :
    nameBefore (before ++ (w ++ gap)) = w := by
  have first : ∀ b ∈ (w.reverse ++ before.reverse).head?, isSpaceByte b = false := by
    intro b found
    cases last : w.getLast? with
    | none =>
      obtain rfl := List.getLast?_eq_none_iff.mp last
      exact (ends b (by simpa using found)).2 rfl
    | some c =>
      obtain rfl : c = b := by simpa [last] using found
      exact (letter_named c (word c (List.mem_of_getLast? last))).2
  have stop : before.reverse.takeWhile isNameByte = [] := by
    cases whole : before.reverse with
    | nil => rfl
    | cons b rest =>
      have last : b ∈ before.getLast? := by
        rw [← List.head?_reverse, whole]
        rfl
      rw [List.takeWhile_cons_of_neg (by simp [(ends b last).1])]
  have spaces : ∀ b ∈ gap.reverse, isSpaceByte b = true :=
    fun b found => (blank_unnamed b (blanks b (List.mem_reverse.mp found))).2
  have letters : ∀ b ∈ w.reverse, isNameByte b = true :=
    fun b found => (letter_named b (word b (List.mem_reverse.mp found))).1
  rw [nameBefore_small small, List.reverse_append, List.reverse_append, List.append_assoc,
    List.dropWhile_append_of_pos spaces, dropWhile_stop first, List.takeWhile_append_of_pos letters, stop,
    List.append_nil, List.reverse_reverse]

theorem mark_of_written {k : Kind} (written : Written k w) (nameless : k ≠ .identifier)
    (wordless : k ≠ .number) : ∃ b, w = [b] ∧ Kind.ofByte? b = some k := by
  cases k with
  | identifier => exact absurd rfl nameless
  | number => exact absurd rfl wordless
  | _ => exact written

theorem small_append (front : Front pos text us) (blanks : ∀ b ∈ gap, Bytes.isBlank b = true) :
    ∀ b ∈ text ++ gap, b < 128 :=
  List.forall_mem_append.mpr ⟨front.small, fun b found => (blank_plain b (blanks b found)).1⟩

theorem nameBefore_name (front : Front pos text (us ++ [t]))
    (blanks : ∀ b ∈ gap, Bytes.isBlank b = true) (named : t.kind = .identifier)
    (fits : Fits us .identifier) : nameBefore (text ++ gap) = t.value := by
  have small := small_append front blanks
  have proper := front.proper
  obtain ⟨before, more, rfl, between, -, meets⟩ := front.concat
  have word : Written .identifier t.value := named ▸ proper t (by simp)
  rw [List.append_assoc, List.append_assoc] at small ⊢
  refine nameBefore_eq small (List.forall_mem_append.mpr ⟨between, blanks⟩) word.2 ?_
  intro b last
  refine ⟨?_, fun none => absurd none word.1⟩
  rcases meets b last with blank | ⟨u, final, ends, follows⟩
  · exact (blank_unnamed b blank).1
  · have nameless : u.kind ≠ .identifier := by
      intro is
      obtain ⟨c, v, value⟩ := List.exists_cons_of_ne_nil word.1
      have letter := word.2 c (by simp [value])
      rw [follows is c (by simp [value])] at letter
      cases letter
    obtain ⟨c, value, mark⟩ := mark_of_written
      (proper u (List.mem_append_left _ (List.mem_of_getLast? final))) nameless (fits u final).1
    obtain rfl : c = b := by simpa [value] using ends
    exact (mark_unnamed c (by rw [mark]; rfl)).1

theorem nameBefore_none (front : Front pos text us) (blanks : ∀ b ∈ gap, Bytes.isBlank b = true)
    (fits : Fits us .lparen) : nameBefore (text ++ gap) = [] := by
  have small := small_append front blanks
  induction us using List.reverseRecOn with
  | nil =>
    have order : text ++ gap = [] ++ ([] ++ (text ++ gap)) := rfl
    rw [order] at small ⊢
    exact nameBefore_eq small (List.forall_mem_append.mpr ⟨front.blanks, blanks⟩) (by simp) (by simp)
  | append_singleton us t =>
    have proper := front.proper t (by simp)
    obtain ⟨before, more, rfl, between, -⟩ := front.concat
    obtain ⟨wordless, nameless⟩ := fits t (by simp)
    obtain ⟨b, value, mark⟩ := mark_of_written proper (fun is => nameless is rfl) wordless
    have order : before ++ (t.value ++ more) ++ gap = (before ++ [b]) ++ ([] ++ (more ++ gap)) := by
      simp [value]
    rw [order] at small ⊢
    refine nameBefore_eq small (List.forall_mem_append.mpr ⟨between, blanks⟩) (by simp) ?_
    intro c last
    obtain rfl : b = c := by simpa using last
    have unnamed := mark_unnamed b (by rw [mark]; rfl)
    exact ⟨unnamed.1, fun _ => unnamed.2⟩

theorem trim_small (small : ∀ b ∈ text, b < 128) :
    Letter.trim text = ((text.dropWhile isSpaceByte).reverse.dropWhile isSpaceByte).reverse := by
  rw [Letter.trim, Utf8.pieces_single small, List.dropWhile_map, ← List.map_reverse,
    List.dropWhile_map, ← List.map_reverse, List.flatMap_map]
  exact List.flatMap_singleton' _

theorem trim_word (before : ∀ b ∈ text, Bytes.isBlank b = true) (word : Word w)
    (behind : ∀ b ∈ gap, Bytes.isBlank b = true) : Letter.trim (text ++ (w ++ gap)) = w := by
  have small : ∀ b ∈ text ++ (w ++ gap), b < 128 := by
    simp only [List.forall_mem_append]
    exact ⟨fun b found => (blank_plain b (before b found)).1,
      fun b found => (letter_plain b (word.2 b found)).1,
      fun b found => (blank_plain b (behind b found)).1⟩
  have spaces : ∀ b ∈ gap.reverse, isSpaceByte b = true :=
    fun b found => (blank_unnamed b (behind b (List.mem_reverse.mp found))).2
  have solid (b : UInt8) (found : b ∈ w) : isSpaceByte b = false := (letter_named b (word.2 b found)).2
  have first : (w ++ gap).dropWhile isSpaceByte = w ++ gap := by
    apply dropWhile_stop
    intro b head
    obtain ⟨a, v, rfl⟩ := List.exists_cons_of_ne_nil word.1
    obtain rfl : a = b := by simpa using head
    exact solid a (List.mem_cons_self ..)
  have last : w.reverse.dropWhile isSpaceByte = w.reverse := by
    apply dropWhile_stop
    intro b head
    exact solid b (List.mem_reverse.mp (List.mem_of_head? head))
  rw [trim_small small, List.dropWhile_append_of_pos fun b found => (blank_unnamed b (before b found)).2,
    first, List.reverse_append, List.dropWhile_append_of_pos spaces, last, List.reverse_reverse]

end Naming

section Arguments

variable {pos index : Nat} {d : Int} {text arg rest : Bytes} {us : List Token}

theorem lastArgument_flat (none : 44 ∉ text) :
    lastArgument d index arg text = (index, text.reverse ++ arg) := by
  induction text generalizing d arg with
  | nil => rfl
  | cons b text ih =>
    rw [List.mem_cons, not_or] at none
    have other : (b == 44 && d == 0) = false := by simp [Ne.symm none.1]
    rw [lastArgument, other, ih none.2]
    simp

theorem lastArgument_byte {b : UInt8} (other : b ∉ [40, 41, 44]) :
    lastArgument d index arg (b :: rest) = lastArgument d index (b :: arg) rest := by
  simp only [List.mem_cons, List.not_mem_nil, or_false, not_or] at other
  obtain ⟨opens, closes, comma⟩ := other
  simp [lastArgument, opens, closes, comma]

theorem lastArgument_quiet (quiet : ∀ b ∈ text, b ∉ [40, 41, 44]) :
    lastArgument d index arg (text ++ rest) = lastArgument d index (text.reverse ++ arg) rest := by
  induction text generalizing arg with
  | nil => rfl
  | cons b text ih =>
    obtain ⟨here, later⟩ := List.forall_mem_cons.mp quiet
    rw [List.cons_append, lastArgument_byte here, ih later]
    simp

theorem lastArgument_blanks (blanks : ∀ b ∈ text, Bytes.isBlank b = true) :
    lastArgument d index arg (text ++ rest) = lastArgument d index (text.reverse ++ arg) rest := by
  apply lastArgument_quiet
  intro b found
  have blank := blanks b found
  simp only [List.mem_cons, List.not_mem_nil, or_false, not_or]
  exact ⟨blank_avoids blank (j := .lparen) rfl, blank_avoids blank (j := .rparen) rfl,
    blank_avoids blank (j := .comma) rfl⟩

theorem lastArgument_comma :
    lastArgument 0 index arg (44 :: rest) = lastArgument 0 (index + 1) [] rest := rfl

def isComma (t : Token) : Bool := t.kind == .comma

theorem lastArgument_token {t : Token} (written : Written t.kind t.value)
    (outside : t.kind = .comma → d = 0) (index : Nat) (arg rest : Bytes) :
    ∃ last, lastArgument d index arg (t.value ++ rest) =
      lastArgument (d + weight t) (index + [t].countP isComma) last rest := by
  by_cases comma : t.kind = .comma
  · rw [comma] at written
    rw [written_single written (b := 44) rfl, weight_other (by rw [comma]; decide), outside comma]
    exact ⟨[], by simp [lastArgument, isComma, comma]⟩
  · have uncounted : [t].countP isComma = 0 := by simp [isComma, comma]
    rw [uncounted, Nat.add_zero]
    by_cases opens : t.kind = .lparen
    · rw [weight_open opens]
      rw [opens] at written
      rw [written_single written (b := 40) rfl]
      exact ⟨40 :: arg, rfl⟩
    by_cases closes : t.kind = .rparen
    · rw [weight_close closes]
      rw [closes] at written
      rw [written_single written (b := 41) rfl]
      exact ⟨41 :: arg, rfl⟩
    · rw [weight_other (by simp [opens, closes]), Int.add_zero]
      refine ⟨_, lastArgument_quiet fun b found => ?_⟩
      simp only [List.mem_cons, List.not_mem_nil, or_false, not_or]
      refine ⟨?_, ?_, ?_⟩
      · rintro rfl
        exact written_avoids written (j := .lparen) rfl opens found
      · rintro rfl
        exact written_avoids written (j := .rparen) rfl closes found
      · rintro rfl
        exact written_avoids written (j := .comma) rfl comma found

theorem lastArgument_front (front : Front pos text us)
    (outside : ∀ (before : List Token) (t : Token) (behind : List Token),
      us = before ++ t :: behind → t.kind = .comma → d + depth before = 0)
    (index : Nat) (arg rest : Bytes) :
    ∃ last, lastArgument d index arg (text ++ rest) =
      lastArgument (d + depth us) (index + us.countP isComma) last rest := by
  induction us generalizing pos text d index arg with
  | nil => exact ⟨_, by simpa using lastArgument_blanks front.blanks⟩
  | cons t us ih =>
    obtain ⟨gap, more, rfl, blanks, written, -, front⟩ := front.cons
    rw [List.append_assoc, List.append_assoc, lastArgument_blanks blanks]
    have first : t.kind = .comma → d = 0 := by simpa using outside [] t us rfl
    obtain ⟨mid, here⟩ := lastArgument_token written first index (gap.reverse ++ arg) (more ++ rest)
    have later : ∀ (before : List Token) (u : Token) (behind : List Token),
        us = before ++ u :: behind → u.kind = .comma → d + weight t + depth before = 0 := by
      intro before u behind whole comma
      have := outside (t :: before) u behind (by rw [whole]; rfl) comma
      rwa [depth_cons, ← Int.add_assoc] at this
    have counts : index + (t :: us).countP isComma = index + [t].countP isComma + us.countP isComma := by
      rw [List.countP_cons, List.countP_singleton]
      omega
    rw [here, depth_cons, ← Int.add_assoc, counts]
    exact ih front later _ _

end Arguments

end DistanceField.Editor
