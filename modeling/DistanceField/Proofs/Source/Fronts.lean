import DistanceField.Proofs.Source.Scanning

/-! The text before a cursor: blanks and whole tokens, and perhaps the beginning of one more. -/
namespace DistanceField.Lexer

section Lexemes

variable {b : UInt8} {j k : Kind} {w : Bytes}

theorem letter_plain : ∀ b : UInt8, isLetter b = true → b < 128 ∧ Kind.ofByte? b = none := by
  decide +kernel

theorem digit_plain : ∀ b : UInt8, isDigit b = true ∨ b = 46 → b < 128 ∧ Kind.ofByte? b = none := by
  decide +kernel

theorem blank_plain : ∀ b : UInt8, Bytes.isBlank b = true → b < 128 ∧ Kind.ofByte? b = none := by
  decide +kernel

theorem mark_small : ∀ b : UInt8, (Kind.ofByte? b).isSome = true → b < 128 := by
  decide +kernel

theorem numeral_byte (numeral : Numeral w) (found : b ∈ w) : isDigit b = true ∨ b = 46 := by
  obtain ⟨whole, part, digits, more, -, rfl⟩ := numeral
  unfold Read.spelled at found
  split at found
  · exact .inl (digits b found)
  · rcases List.mem_append.mp found with first | rest
    · exact .inl (digits b first)
    · rcases List.mem_cons.mp rest with point | last
      · exact .inr point
      · exact .inl (more b last)

theorem written_byte (written : Written k w) (found : b ∈ w) :
    b < 128 ∧ (Kind.ofByte? b = none ∨ w = [b] ∧ Kind.ofByte? b = some k) := by
  cases k with
  | identifier =>
    have plain := letter_plain b (written.2 b found)
    exact ⟨plain.1, .inl plain.2⟩
  | number =>
    have plain := digit_plain b (numeral_byte written found)
    exact ⟨plain.1, .inl plain.2⟩
  | _ =>
    obtain ⟨c, rfl, mark⟩ := written
    obtain rfl := List.mem_singleton.mp found
    exact ⟨mark_small b (by rw [mark]; rfl), .inr ⟨rfl, mark⟩⟩

theorem written_avoids (written : Written k w) (mark : Kind.ofByte? b = some j) (other : k ≠ j) :
    b ∉ w := by
  intro found
  rcases (written_byte written found).2 with none | ⟨-, same⟩
  · rw [none] at mark
    cases mark
  · rw [same] at mark
    exact other (Option.some.inj mark)

theorem mark_name : ∀ b : UInt8, ∀ k ∈ Kind.ofByte? b, k.name = [b] := by
  decide +kernel

theorem written_single (written : Written k w) (mark : Kind.ofByte? b = some k) : w = [b] := by
  obtain ⟨-, identifier, number, -⟩ := ofByte?_plain mark
  have name := mark_name b k mark
  cases k with
  | identifier => exact absurd rfl identifier
  | number => exact absurd rfl number
  | _ =>
    obtain ⟨c, rfl, same⟩ := written
    rw [← mark_name c _ same, name]

theorem blank_avoids (blank : Bytes.isBlank b = true) {c : UInt8} (mark : Kind.ofByte? c = some j) :
    b ≠ c := by
  rintro rfl
  rw [(blank_plain b blank).2] at mark
  cases mark

end Lexemes

/-- A text from an offset on that is made of blanks and some tokens. No letter follows a name. -/
inductive Front : Nat → Bytes → List Token → Prop where
  | none {pos : Nat} : Front pos [] []
  | blank {pos : Nat} {b : UInt8} {rest : Bytes} {us : List Token} (blank : Bytes.isBlank b = true)
      (more : Front (pos + 1) rest us) : Front pos (b :: rest) us
  | token {pos : Nat} {w rest : Bytes} {k : Kind} {us : List Token} (written : Written k w)
      (stops : k = .identifier → ∀ b ∈ rest.head?, isLetter b = false)
      (more : Front (pos + w.length) rest us) :
      Front pos (w ++ rest) (⟨k, w, ⟨pos, (pos + w.length : Nat)⟩⟩ :: us)

/-- The first `k` bytes of a text are made of the tokens that end there at most, and of the beginning
of the next one. -/
structure Cut (pos : Nat) (text : Bytes) (k : Nat) (pre post : List Token) (front part : Bytes) :
    Prop where
  text : text.take k = front ++ part
  front : Front pos front pre
  part : ∀ b ∈ part, Kind.ofByte? b = none
  passed : ∀ t ∈ pre, t.span.max ≤ (pos + k : Nat)
  ahead : ∀ t ∈ post, t.kind ≠ .eof → ((pos + k : Nat) : Int) < t.span.max

section Cutting

variable {pos : Nat} {text : Bytes} {ts us vs : List Token} {t : Token}

theorem Lexes.behind (lexes : Lexes pos text ts) (found : t ∈ ts) (proper : t.kind ≠ .eof) :
    (pos : Int) < t.span.max := by
  induction lexes with
  | finish =>
    obtain rfl := List.mem_singleton.mp found
    exact absurd rfl proper
  | blank _ _ ih =>
    have := ih found
    omega
  | token _ _ _ ih =>
    rcases List.mem_cons.mp found with rfl | later
    · dsimp only
      omega
    · have := ih later
      omega

theorem Cut.blank {b : UInt8} {k : Nat} {front part : Bytes}
    (cut : Cut (pos + 1) text k us vs front part) (blank : Bytes.isBlank b = true) :
    Cut pos (b :: text) (k + 1) us vs (b :: front) part := by
  have shift : pos + 1 + k = pos + (k + 1) := by omega
  constructor
  · rw [List.take_succ_cons, cut.text, List.cons_append]
  · exact .blank blank cut.front
  · exact cut.part
  · rw [← shift]
    exact cut.passed
  · rw [← shift]
    exact cut.ahead

theorem Cut.token {b : UInt8} {w front part : Bytes} {kind : Kind} {k : Nat}
    (cut : Cut (pos + w.length + 1) text k us vs front part)
    (found : lexeme b (w ++ text) = (.ok kind, w.length)) :
    Cut pos (b :: (w ++ text)) (w.length + 1 + k) (⟨kind, b :: w, ⟨pos, pos + w.length + 1⟩⟩ :: us) vs
      (b :: w ++ front) part := by
  have written := lexeme_written found
  have shift : pos + w.length + 1 + k = pos + (w.length + 1 + k) := by omega
  have stops : kind = .identifier → ∀ c ∈ front.head?, isLetter c = false := by
    rintro rfl c first
    refine (lexeme_longest found).letter written c ?_
    obtain ⟨front, rfl⟩ := List.head?_eq_some_iff.mp first
    have begins : (text.take k).head? = some c := by
      rw [cut.text]
      rfl
    rw [List.head?_take] at begins
    split at begins
    · cases begins
    · exact begins
  have place : (⟨kind, b :: w, ⟨pos, pos + w.length + 1⟩⟩ : Token) =
      ⟨kind, b :: w, ⟨pos, (pos + (b :: w).length : Nat)⟩⟩ := by
    simp [Int.add_assoc]
  constructor
  · rw [← List.cons_append, ← List.length_cons, List.take_length_add_append, cut.text,
      List.append_assoc]
  · rw [place]
    exact .token written stops cut.front
  · exact cut.part
  · rw [← shift]
    refine List.forall_mem_cons.mpr ⟨?_, cut.passed⟩
    dsimp only
    omega
  · rw [← shift]
    exact cut.ahead

theorem Lexes.cut_inside {b : UInt8} {w : Bytes} {kind : Kind} {k : Nat}
    (more : Lexes (pos + w.length + 1) text ts) (found : lexeme b (w ++ text) = (.ok kind, w.length))
    (inside : k ≤ w.length) :
    Cut pos (b :: (w ++ text)) k [] (⟨kind, b :: w, ⟨pos, pos + w.length + 1⟩⟩ :: ts) []
      ((b :: w).take k) := by
  constructor
  · rw [← List.cons_append, List.take_append_of_le_length (by rw [List.length_cons]; omega)]
    rfl
  · exact .none
  · intro c member
    have written := written_byte (lexeme_written found) (List.mem_of_mem_take member)
    rcases written.2 with none | ⟨single, -⟩
    · exact none
    · have long := congrArg List.length single
      rw [List.length_cons, List.length_singleton] at long
      obtain rfl : k = 0 := by omega
      cases member
  · simp
  · refine List.forall_mem_cons.mpr ⟨fun _ => ?_, ?_⟩
    · dsimp only
      omega
    · intro t later proper
      have := more.behind later proper
      omega

theorem Lexes.cut (lexes : Lexes pos text ts) (k : Nat) :
    ∃ pre post front part, ts = pre ++ post ∧ Cut pos text k pre post front part := by
  induction lexes generalizing k with
  | @finish pos =>
    refine ⟨[], [Token.finish pos], [], [], rfl, ⟨by simp, .none, by simp, by simp, ?_⟩⟩
    intro t found proper
    obtain rfl := List.mem_singleton.mp found
    exact absurd rfl proper
  | @blank pos b rest ts blank more ih =>
    cases k with
    | zero =>
      refine ⟨[], ts, [], [], rfl, ⟨rfl, .none, by simp, by simp, ?_⟩⟩
      intro t found proper
      exact (Lexes.blank blank more).behind found proper
    | succ k =>
      obtain ⟨pre, post, front, part, split, cut⟩ := ih k
      exact ⟨pre, post, b :: front, part, split, cut.blank blank⟩
  | @token pos b w rest kind ts solid found more ih =>
    by_cases whole : w.length + 1 ≤ k
    · obtain ⟨m, rfl⟩ := Nat.exists_eq_add_of_le whole
      obtain ⟨pre, post, front, part, rfl, cut⟩ := ih m
      exact ⟨_ :: pre, post, b :: w ++ front, part, rfl, cut.token found⟩
    · exact ⟨[], _, [], (b :: w).take k, rfl, more.cut_inside found (by omega)⟩

theorem Front.proper (front : Front pos text us) : ∀ t ∈ us, Written t.kind t.value := by
  induction front with
  | none => simp
  | blank _ _ ih => exact ih
  | token written _ _ ih => exact List.forall_mem_cons.mpr ⟨written, ih⟩

theorem Front.small (front : Front pos text us) : ∀ b ∈ text, b < 128 := by
  induction front with
  | none => simp
  | blank blank _ ih => exact List.forall_mem_cons.mpr ⟨(blank_plain _ blank).1, ih⟩
  | token written _ _ ih =>
    exact List.forall_mem_append.mpr ⟨fun b found => (written_byte written found).1, ih⟩

theorem Front.blanks (front : Front pos text []) : ∀ b ∈ text, Bytes.isBlank b = true := by
  generalize none : [] = us at front
  induction front with
  | none => simp
  | blank blank _ ih => exact List.forall_mem_cons.mpr ⟨blank, ih none⟩
  | token => cases none

theorem Front.avoids {b : UInt8} {j : Kind} (front : Front pos text us) (mark : Kind.ofByte? b = some j)
    (none : ∀ t ∈ us, t.kind ≠ j) : b ∉ text := by
  induction front with
  | none => simp
  | blank blank _ ih =>
    intro found
    rcases List.mem_cons.mp found with same | later
    · exact blank_avoids blank mark same.symm
    · exact ih none later
  | token written _ _ ih =>
    obtain ⟨other, rest⟩ := List.forall_mem_cons.mp none
    intro found
    rcases List.mem_append.mp found with here | later
    · exact written_avoids written mark other here
    · exact ih rest later

theorem Front.cons (front : Front pos text (t :: us)) :
    ∃ gap rest, text = gap ++ (t.value ++ rest) ∧ (∀ b ∈ gap, Bytes.isBlank b = true) ∧
      Written t.kind t.value ∧ t.span.max = (pos + gap.length + t.value.length : Nat) ∧
      Front (pos + gap.length + t.value.length) rest us := by
  generalize whole : t :: us = vs at front
  induction front with
  | none => cases whole
  | @blank pos b rest vs blank more ih =>
    obtain ⟨gap, rest, rfl, blanks, written, span, front⟩ := ih whole
    have shift : pos + (b :: gap).length = pos + 1 + gap.length := by
      rw [List.length_cons]
      omega
    refine ⟨b :: gap, rest, rfl, List.forall_mem_cons.mpr ⟨blank, blanks⟩, written, ?_, ?_⟩
    · rw [shift]
      exact span
    · rw [shift]
      exact front
  | token written _ more =>
    cases whole
    exact ⟨[], _, rfl, by simp, written, rfl, more⟩

theorem Front.append (front : Front pos text (us ++ vs)) :
    ∃ first second, text = first ++ second ∧ Front pos first us ∧
      Front (pos + first.length) second vs := by
  generalize whole : us ++ vs = ts at front
  induction front generalizing us with
  | none =>
    obtain ⟨rfl, rfl⟩ := List.append_eq_nil_iff.mp whole
    exact ⟨[], [], rfl, .none, .none⟩
  | @blank pos b rest ts blank more ih =>
    cases us with
    | nil =>
      cases whole
      exact ⟨[], _, rfl, .none, .blank blank more⟩
    | cons u us =>
      obtain ⟨first, second, rfl, before, behind⟩ := ih whole
      refine ⟨b :: first, second, rfl, .blank blank before, ?_⟩
      rwa [List.length_cons, Nat.add_comm first.length, ← Nat.add_assoc]
  | @token pos w rest k ts written stops more ih =>
    cases us with
    | nil =>
      cases whole
      exact ⟨[], _, rfl, .none, .token written stops more⟩
    | cons u us =>
      obtain ⟨rfl, later⟩ := List.cons.inj whole
      obtain ⟨first, second, rfl, before, behind⟩ := ih later
      refine ⟨w ++ first, second, by simp, .token written ?_ before, ?_⟩
      · intro is b next
        refine stops is b ?_
        rw [List.head?_append, next]
        rfl
      · rwa [List.length_append, ← Nat.add_assoc]

theorem Front.concat (front : Front pos text (us ++ [t])) :
    ∃ before gap, text = before ++ (t.value ++ gap) ∧ (∀ b ∈ gap, Bytes.isBlank b = true) ∧
      (before = [] → us = []) ∧
      ∀ b ∈ before.getLast?, Bytes.isBlank b = true ∨ ∃ u ∈ us.getLast?, b ∈ u.value.getLast? ∧
        (u.kind = .identifier → ∀ c ∈ t.value.head?, isLetter c = false) := by
  generalize whole : us ++ [t] = ts at front
  induction front generalizing us with
  | none => simp at whole
  | @blank pos b rest ts blank more ih =>
    obtain ⟨before, gap, rfl, blanks, -, meets⟩ := ih whole
    refine ⟨b :: before, gap, rfl, blanks, by simp, ?_⟩
    intro c last
    cases before with
    | nil =>
      obtain rfl : b = c := by simpa using last
      exact .inl blank
    | cons a before =>
      rw [List.getLast?_cons_cons] at last
      exact meets c last
  | @token pos w rest k ts written stops more ih =>
    cases us with
    | nil =>
      cases whole
      exact ⟨[], rest, rfl, more.blanks, fun _ => rfl, by simp⟩
    | cons u us =>
      obtain ⟨rfl, later⟩ := List.cons.inj whole
      obtain ⟨before, gap, rfl, blanks, none, meets⟩ := ih later
      obtain ⟨a, v, rfl⟩ := written_filled written
      refine ⟨a :: v ++ before, gap, by simp, blanks, by simp, ?_⟩
      intro c last
      cases before with
      | nil =>
        obtain rfl := none rfl
        rw [List.append_nil] at last
        refine .inr ⟨_, rfl, last, fun is d first => stops is d ?_⟩
        rw [List.nil_append, List.head?_append, first]
        rfl
      | cons d before =>
        rw [List.getLast?_append_cons] at last
        rcases meets c last with blank | ⟨u', final, meet⟩
        · exact .inl blank
        · refine .inr ⟨u', ?_, meet⟩
          cases us with
          | nil => cases final
          | cons x us => exact final

end Cutting

end DistanceField.Lexer
