import DistanceField.Proofs.Source.Cutting

/-! The scanner cuts a text into blanks and lexemes by longest match. It loses no byte of what it
accepts, names the first place where it cannot go on, and comes to the end from everywhere. -/
namespace DistanceField

namespace Lexer

/-- The lexemes of each kind. -/
def Written : Kind → Bytes → Prop
  | .identifier, w => Word w
  | .number, w => Numeral w
  | k, w => ∃ b, w = [b] ∧ Kind.ofByte? b = some k

/-- Before `rest`, no lexeme is longer than `w` that starts where it does. -/
def Longest (w rest : Bytes) : Prop :=
  ∀ k v, Written k v → v <+: w ++ rest → v.length ≤ w.length

/-- A blank, or the longest lexeme, is taken from the front of a text. -/
inductive Takes : Bytes → Bytes → Prop where
  | blank {b : UInt8} {rest : Bytes} (blank : Bytes.isBlank b = true) : Takes (b :: rest) rest
  | lexeme {k : Kind} {w rest : Bytes} (written : Written k w) (longest : Longest w rest) :
      Takes (w ++ rest) rest

/-- A text comes down to another one, blank by blank and lexeme by lexeme. -/
def Cuts : Bytes → Bytes → Prop := Relation.ReflTransGen Takes

/-- What is wrong with a lexeme at an offset that cannot be completed: it lacks the digits behind its
point, or its first character starts none. -/
inductive Stuck (pos : Nat) : Bytes → Complaint → Prop where
  | point {ds rest : Bytes} (digits : Read.AllDigits ds) (some : ds ≠ [])
      (bare : ∀ b ∈ rest.head?, isDigit b = false) :
      Stuck pos (ds ++ 46 :: rest) ⟨.bareDot, ⟨pos, pos + ds.length + 1⟩⟩
  | unknown {b : UInt8} {rest : Bytes} {c : Char} {n : Nat} (solid : Bytes.isBlank b = false)
      (strange : ∀ k w, ¬ Written k (b :: w)) (rune : Utf8.Rune (b :: rest) c n) :
      Stuck pos (b :: rest) ⟨.unknownCharacter c, ⟨pos, pos + n⟩⟩

section Lexemes

variable {b : UInt8} {v w rest : Bytes} {j k : Kind}

theorem written_mark (mark : Kind.ofByte? b = some k) : Written k [b] := by
  obtain ⟨-, identifier, number, -⟩ := ofByte?_plain mark
  cases k with
  | identifier => exact absurd rfl identifier
  | number => exact absurd rfl number
  | _ => exact ⟨b, rfl, mark⟩

theorem numeral_digit (numeral : Numeral (b :: w)) : isDigit b = true := by
  obtain ⟨c, rest, same, digit⟩ := numeral_starts numeral
  rwa [(List.cons.inj same).1]

theorem classify_mark (mark : Kind.ofByte? b = some k) : classify b = .mark k := by
  have each : ∀ p ∈ marks, classify p.1 = .mark p.2 := by decide
  exact each (b, k) (mem_marks mark)

theorem written_cases (written : Written k (b :: w)) :
    (classify b = .letter ∧ k = .identifier ∧ Word (b :: w)) ∨
      (classify b = .digit ∧ k = .number ∧ Numeral (b :: w)) ∨ (classify b = .mark k ∧ w = []) := by
  cases k with
  | identifier => exact .inl ⟨classify_letter (written.2 b List.mem_cons_self), rfl, written⟩
  | number => exact .inr (.inl ⟨classify_digit (numeral_digit written), rfl, written⟩)
  | _ =>
    obtain ⟨c, same, mark⟩ := written
    obtain ⟨rfl, rfl⟩ := List.cons.inj same
    exact .inr (.inr ⟨classify_mark mark, rfl⟩)

theorem written_filled (written : Written k w) : ∃ b v, w = b :: v := by
  cases k with
  | identifier => exact List.exists_cons_of_ne_nil written.1
  | number =>
    obtain ⟨b, v, same, -⟩ := numeral_starts written
    exact ⟨b, v, same⟩
  | _ =>
    obtain ⟨b, same, -⟩ := written
    exact ⟨b, [], same⟩

theorem written_solid (written : Written k (b :: w)) : Bytes.isBlank b = false := by
  rcases written_cases written with ⟨letter, -⟩ | ⟨digit, -⟩ | ⟨mark, -⟩
  · exact isBlank_of_letter (isLetter_of_classify letter)
  · exact isBlank_of_digit (isDigit_of_classify digit)
  · exact (ofByte?_plain (mark_of_classify mark).1).2.2.2.1

theorem written_proper (written : Written k w) : k ≠ .eof := by
  rintro rfl
  obtain ⟨b, -, mark⟩ := written
  exact (ofByte?_plain mark).1 rfl

theorem classify_unknown : classify b = .unknown ↔ ∀ k w, ¬ Written k (b :: w) := by
  constructor
  · intro unknown k w written
    rcases written_cases written with ⟨of, -⟩ | ⟨of, -⟩ | ⟨of, -⟩ <;> simp [unknown] at of
  · intro strange
    cases of : classify b with
    | letter =>
      refine absurd ?_ (strange .identifier [])
      exact ⟨by simp, by simpa using isLetter_of_classify of⟩
    | digit =>
      refine absurd ?_ (strange .number [])
      exact ⟨[b], [], List.forall_mem_singleton.mpr (isDigit_of_classify of), List.forall_mem_nil _,
        by simp, rfl⟩
    | mark k => exact absurd (written_mark (mark_of_classify of).1) (strange k [])
    | unknown => rfl

theorem length_le_run {p : UInt8 → Bool} {text : Bytes} (all : ∀ b ∈ v, p b = true)
    (front : v <+: text) : v.length ≤ run p text := by
  obtain ⟨rest, rfl⟩ := front
  rw [run_append all]
  exact Nat.le_add_right _ _

theorem lexeme_written (found : lexeme b (w ++ rest) = (.ok k, w.length)) : Written k (b :: w) := by
  cases of : classify b with
  | digit =>
    obtain ⟨rfl, numeral⟩ := numeral_digits of found
    rwa [List.take_left] at numeral
  | letter =>
    rw [lexeme, of] at found
    obtain ⟨same, count⟩ := Prod.mk.inj found
    cases same
    have word := word_take (isLetter_of_classify of) (w ++ rest)
    rwa [count, List.take_left] at word
  | mark j =>
    rw [lexeme, of] at found
    obtain ⟨same, count⟩ := Prod.mk.inj found
    cases same
    obtain rfl := List.length_eq_zero_iff.mp count.symm
    exact written_mark (mark_of_classify of).1
  | unknown =>
    rw [lexeme, of] at found
    cases found

theorem numeral_le {n : Nat} (found : lexeme b rest = (.ok k, n)) (numeral : Numeral (b :: v))
    (front : v <+: rest) : v.length ≤ n := by
  obtain ⟨whole, part, all, more, some, same⟩ := numeral
  obtain ⟨c, whole, rfl⟩ := List.exists_cons_of_ne_nil some
  obtain ⟨digit, later⟩ := List.forall_mem_cons.mp all
  cases part with
  | nil =>
    obtain ⟨rfl, rfl⟩ : b = c ∧ v = whole := by simpa [Read.spelled] using same
    have least := length_le_run later front
    rw [lexeme, classify_digit digit] at found
    dsimp only at found
    split at found
    · split at found
      · cases found
      · cases found
        change v.length ≤ run isDigit rest at least
        omega
    · cases found
      exact least
  | cons d part =>
    obtain ⟨rfl, rfl⟩ : b = c ∧ v = whole ++ 46 :: d :: part := by simpa [Read.spelled] using same
    obtain ⟨tail, rfl⟩ := front
    have least := length_le_run (p := isDigit) more (List.prefix_append _ tail)
    rw [List.append_assoc, List.cons_append, lexeme_point digit later] at found
    split at found
    · cases found
    · cases found
      rw [List.length_append, List.length_cons]
      omega

/-- What the scanner takes is the longest lexeme. -/
theorem lexeme_longest (found : lexeme b (w ++ rest) = (.ok k, w.length)) : Longest (b :: w) rest := by
  intro j v written front
  obtain ⟨c, v, rfl⟩ := written_filled written
  obtain ⟨rfl, behind⟩ := List.cons_prefix_cons.mp front
  rw [List.length_cons, List.length_cons, Nat.succ_le_succ_iff]
  rcases written_cases written with ⟨of, rfl, word⟩ | ⟨of, rfl, numeral⟩ | ⟨of, rfl⟩
  · rw [lexeme, of] at found
    obtain ⟨-, count⟩ := Prod.mk.inj found
    rw [← count]
    exact length_le_run (List.forall_mem_cons.mp word.2).2 behind
  · exact numeral_le found numeral behind
  · exact Nat.zero_le _

theorem Longest.stops {c : UInt8} (longest : Longest w rest) (next : c ∈ rest.head?) :
    ¬ Written k (w ++ [c]) := by
  intro written
  obtain ⟨tail, rfl⟩ := List.head?_eq_some_iff.mp next
  have longer := longest k _ written ⟨tail, by simp⟩
  simp at longer

theorem word_concat {c : UInt8} (word : Word w) (letter : isLetter c = true) : Word (w ++ [c]) :=
  ⟨by simp, List.forall_mem_append.mpr ⟨word.2, List.forall_mem_singleton.mpr letter⟩⟩

theorem numeral_concat {c : UInt8} (numeral : Numeral w) (digit : isDigit c = true) :
    Numeral (w ++ [c]) := by
  obtain ⟨whole, part, all, more, some, rfl⟩ := numeral
  have one : Read.AllDigits [c] := List.forall_mem_singleton.mpr digit
  cases part with
  | nil => exact ⟨whole ++ [c], [], all.append one, List.forall_mem_nil _, by simp, by simp [Read.spelled]⟩
  | cons d part => exact ⟨whole, d :: part ++ [c], all, more.append one, some, by simp [Read.spelled]⟩

theorem Longest.letter (longest : Longest w rest) (word : Word w) :
    ∀ c ∈ rest.head?, isLetter c = false := by
  intro c next
  by_contra letter
  exact longest.stops (k := .identifier) next (word_concat word (by simpa using letter))

theorem Longest.digit (longest : Longest w rest) (numeral : Numeral w) :
    ∀ c ∈ rest.head?, isDigit c = false := by
  intro c next
  by_contra digit
  exact longest.stops (k := .number) next (numeral_concat numeral (by simpa using digit))

/-- The longest lexeme is what the scanner takes, unless it is followed by a point. -/
theorem lexeme_complete (written : Written k (b :: w)) (longest : Longest (b :: w) rest)
    (pointless : ∀ c ∈ rest.head?, c ≠ 46) : lexeme b (w ++ rest) = (.ok k, w.length) := by
  rcases written_cases written with ⟨-, rfl, word⟩ | ⟨-, rfl, numeral⟩ | ⟨of, rfl⟩
  · exact lexeme_word word (longest.letter word)
  · exact lexeme_numeral numeral (longest.digit numeral) pointless
  · exact lexeme_mark of rest

theorem takes_unique {text first second : Bytes} (one : Takes text first) (other : Takes text second) :
    first = second := by
  have cases_of {rest : Bytes} (takes : Takes text rest) :
      (∃ b, Bytes.isBlank b = true ∧ text = b :: rest) ∨
        ∃ k w, Written k w ∧ Longest w rest ∧ text = w ++ rest := by
    cases takes with
    | blank blank => exact .inl ⟨_, blank, rfl⟩
    | lexeme written longest => exact .inr ⟨_, _, written, longest, rfl⟩
  have apart {b : UInt8} {rest rest' : Bytes} {k : Kind} {w : Bytes} (blank : Bytes.isBlank b = true)
      (written : Written k w) (same : b :: rest = w ++ rest') : False := by
    obtain ⟨c, v, rfl⟩ := written_filled written
    have solid := written_solid written
    rw [← (List.cons.inj same).1, blank] at solid
    cases solid
  rcases cases_of one with ⟨b, blank, rfl⟩ | ⟨k, w, written, longest, rfl⟩
  · rcases cases_of other with ⟨c, -, same⟩ | ⟨j, v, mark, -, same⟩
    · exact (List.cons.inj same).2
    · exact (apart blank mark same).elim
  · rcases cases_of other with ⟨c, blank, same⟩ | ⟨j, v, mark, longer, same⟩
    · exact (apart blank written same.symm).elim
    · have least := longest j v mark (same ▸ List.prefix_append v second)
      have most := longer k w written (same ▸ List.prefix_append w first)
      exact (List.append_inj same (le_antisymm most least)).2

theorem stops_of_run {p : UInt8 → Bool} {text : Bytes} (none : run p text = 0) :
    ∀ c ∈ text.head?, p c = false := by
  intro c next
  obtain ⟨tail, rfl⟩ := List.head?_eq_some_iff.mp next
  by_contra holds
  rw [run, List.takeWhile_cons_of_pos (by simpa using holds), List.length_cons] at none
  cases none

/-- Where the scanner fails, no lexeme can be completed. -/
theorem stuck_of_lexeme {trouble : Trouble} {n : Nat} (solid : Bytes.isBlank b = false)
    (found : lexeme b rest = (.error trouble, n)) (pos : Nat) :
    Stuck pos (b :: rest) ⟨trouble, ⟨pos, pos + n + 1⟩⟩ := by
  cases of : classify b with
  | letter | mark =>
    rw [lexeme, of] at found
    cases found
  | digit =>
    have digits := allDigits_take (isDigit_of_classify of) rest
    have count := List.length_take_of_le (run_le isDigit rest)
    have whole := List.take_append_drop (run isDigit rest) rest
    rw [lexeme, of] at found
    dsimp only at found
    split at found
    · next more point =>
      split at found
      · next bare =>
        cases found
        rw [point] at whole
        have stuck := @Stuck.point pos _ more digits (by simp) (stops_of_run (eq_of_beq bare))
        rw [List.cons_append, whole, List.length_cons, count] at stuck
        exact stuck
      · cases found
    · cases found
  | unknown =>
    have rune := Utf8.rune_first b rest
    rw [lexeme, of] at found
    dsimp only at found
    cases found
    have size := rune.size.1
    have last : (pos : Int) + ((Utf8.first (b :: rest)).2.1 - 1 : Nat) + 1 =
        pos + (Utf8.first (b :: rest)).2.1 := by omega
    rw [last]
    exact .unknown solid (classify_unknown.mp of) rune

/-- Where no lexeme can be completed, the scanner fails. -/
theorem Stuck.lexeme {pos : Nat} {c : Complaint} (stuck : Stuck pos (b :: rest) c) :
    Bytes.isBlank b = false ∧ (Lexer.lexeme b rest).1 = .error c.trouble := by
  generalize whole : b :: rest = text at stuck
  cases stuck with
  | @point ds more digits some bare =>
    obtain ⟨d, ds, rfl⟩ := List.exists_cons_of_ne_nil some
    rw [List.cons_append] at whole
    obtain ⟨rfl, rfl⟩ := List.cons.inj whole
    obtain ⟨digit, later⟩ := List.forall_mem_cons.mp digits
    rw [lexeme_point digit later, run_stop bare]
    exact ⟨isBlank_of_digit digit, rfl⟩
  | unknown solid strange rune =>
    obtain ⟨rfl, rfl⟩ := List.cons.inj whole
    rw [Lexer.lexeme, classify_unknown.mpr strange]
    exact ⟨solid, by rw [← rune.first.1]⟩

end Lexemes

section Failing

variable {b : UInt8} {text w rest : Bytes} {c : Complaint} {pos : Nat}

theorem Takes.shorter (takes : Takes text rest) : rest.length < text.length := by
  cases takes with
  | blank => simp
  | lexeme written =>
    obtain ⟨b, v, rfl⟩ := written_filled written
    simp

theorem Cuts.shorter (cuts : Cuts text rest) : rest.length ≤ text.length := by
  induction cuts with
  | refl => exact le_rfl
  | tail _ takes ih => exact takes.shorter.le.trans ih

/-- The complaint about a text from an offset on: all before it is cut, it is about a lexeme that cannot
be completed, and that is the first one. -/
def Halts (pos : Nat) (text : Bytes) (c : Complaint) : Prop :=
  ∃ front rest, text = front ++ rest ∧ Cuts text rest ∧ Stuck (pos + front.length) rest c ∧
    ∀ mid, Cuts text mid → rest.length < mid.length → ∀ p d, ¬ Stuck p mid d

theorem Halts.before (takes : Takes (w ++ rest) rest) (fine : ∀ p d, ¬ Stuck p (w ++ rest) d)
    (halts : Halts (pos + w.length) rest c) : Halts pos (w ++ rest) c := by
  obtain ⟨front, tail, rfl, cuts, stuck, first⟩ := halts
  refine ⟨w ++ front, tail, by simp, .head takes cuts, ?_, ?_⟩
  · rwa [List.length_append, ← Nat.add_assoc]
  · intro mid reached longer
    rcases reached.cases_head with rfl | ⟨next, other, more⟩
    · exact fine
    · obtain rfl := takes_unique takes other
      exact first mid more longer

theorem halts_of_scan (failed : (scan ⟨pos, text⟩).1 = .error c) : Halts pos text c := by
  induction pos, text using scan_induction with
  | finish pos =>
    rw [scan_end (l := ⟨pos, []⟩) rfl] at failed
    cases failed
  | blank pos b rest blank ih =>
    rw [scan_blank blank] at failed
    refine Halts.before (w := [b]) (.blank blank) ?_ (ih failed)
    intro p d stuck
    rw [stuck.lexeme.1] at blank
    cases blank
  | refused pos b rest trouble n solid found =>
    rw [scan_refused solid found] at failed
    cases failed
    refine ⟨[], b :: rest, rfl, .refl, stuck_of_lexeme solid found pos, ?_⟩
    intro mid reached longer
    exact absurd reached.shorter (by omega)
  | taken pos b w rest k solid found ih =>
    have later : (scan ⟨pos + w.length + 1, rest⟩).1 = .error c := by
      rw [scan_taken solid found] at failed
      cases more : (scan ⟨pos + w.length + 1, rest⟩).1 with
      | ok ts =>
        rw [more] at failed
        cases failed
      | error d =>
        rw [more] at failed
        exact failed
    refine Halts.before (w := b :: w) (.lexeme (lexeme_written found) (lexeme_longest found)) ?_
      (ih later)
    intro p d stuck
    rw [List.cons_append] at stuck
    have refused := stuck.lexeme.2
    rw [found] at refused
    cases refused

end Failing

section Accepting

variable {pos : Nat} {text : Bytes} {ts : List Token}

theorem Lexes.cuts (lexes : Lexes pos text ts) : Cuts text [] := by
  induction lexes with
  | finish => exact .refl
  | blank blank _ ih => exact .head (.blank blank) ih
  | token _ found _ ih =>
    exact .head (.lexeme (lexeme_written found) (lexeme_longest found)) ih

theorem Lexes.pointless (lexes : Lexes pos text ts) : ∀ c ∈ text.head?, c ≠ 46 := by
  rintro c next rfl
  cases lexes with
  | finish => cases next
  | blank blank =>
    cases next
    cases blank
  | token _ found =>
    cases next
    cases found

theorem lexes_of_cuts (cuts : Cuts text []) (pos : Nat) : ∃ ts, Lexes pos text ts := by
  induction cuts using Relation.ReflTransGen.head_induction_on generalizing pos with
  | refl => exact ⟨_, .finish⟩
  | head takes _ ih =>
    cases takes with
    | blank blank =>
      obtain ⟨ts, lexes⟩ := ih (pos + 1)
      exact ⟨ts, .blank blank lexes⟩
    | lexeme written longest =>
      obtain ⟨b, w, rfl⟩ := written_filled written
      obtain ⟨ts, lexes⟩ := ih (pos + w.length + 1)
      exact ⟨_, .token (written_solid written) (lexeme_complete written longest lexes.pointless) lexes⟩

theorem Lexes.last (lexes : Lexes pos text ts) :
    ∃ us, ts = us ++ [Token.finish (pos + text.length : Nat)] ∧ ∀ t ∈ us, t.kind ≠ .eof := by
  induction lexes with
  | finish => exact ⟨[], by simp, by simp⟩
  | @blank pos b rest ts _ _ ih =>
    obtain ⟨us, rfl, proper⟩ := ih
    have count : pos + (b :: rest).length = pos + 1 + rest.length := by
      rw [List.length_cons]
      omega
    exact ⟨us, by rw [count], proper⟩
  | @token pos b w rest k ts _ found _ ih =>
    obtain ⟨us, rfl, proper⟩ := ih
    have count : pos + (b :: (w ++ rest)).length = pos + w.length + 1 + rest.length := by
      rw [List.length_cons, List.length_append]
      omega
    refine ⟨_ :: us, by rw [count]; rfl, List.forall_mem_cons.mpr ⟨?_, proper⟩⟩
    exact written_proper (lexeme_written found)

/-- A token in its place in a text: a lexeme by its kind, with no more of it behind. -/
structure Placed (source : Bytes) (t : Token) (before after : Bytes) : Prop where
  whole : source = before ++ (t.value ++ after)
  span : t.span = ⟨before.length, before.length + t.value.length⟩
  written : Written t.kind t.value
  longest : Longest t.value after
  pointless : ∀ c ∈ after.head?, c ≠ 46

theorem Lexes.placed (lexes : Lexes pos text ts) (front : Bytes) (start : pos = front.length) {t : Token}
    (found : t ∈ ts) (proper : t.kind ≠ .eof) : ∃ before after, Placed (front ++ text) t before after := by
  induction lexes generalizing front with
  | finish =>
    obtain rfl := List.mem_singleton.mp found
    exact absurd rfl proper
  | @blank pos b rest ts blank _ ih =>
    obtain ⟨before, after, placed⟩ := ih (front ++ [b]) (by simp [start]) found
    exact ⟨before, after, by simpa using placed⟩
  | @token pos b w rest k ts solid is more ih =>
    rcases List.mem_cons.mp found with rfl | later
    · refine ⟨front, rest, by simp, ?_, lexeme_written is, lexeme_longest is, more.pointless⟩
      simp [start]
      omega
    · obtain ⟨before, after, placed⟩ := ih (front ++ b :: w) (by simp [start]; omega) later
      exact ⟨before, after, by simpa using placed⟩

theorem Lexes.gaps (lexes : Lexes pos text ts) {i : Nat} {b : UInt8} (here : text[i]? = some b)
    (outside : ∀ t ∈ ts, ¬ (t.span.min ≤ (pos + i : Nat) ∧ ((pos + i : Nat) : Int) < t.span.max)) :
    Bytes.isBlank b = true := by
  induction lexes generalizing i with
  | finish => simp at here
  | @blank pos c rest ts blank _ ih =>
    cases i with
    | zero =>
      obtain rfl : c = b := by simpa using here
      exact blank
    | succ i =>
      rw [List.getElem?_cons_succ] at here
      have shift : pos + 1 + i = pos + (i + 1) := by omega
      exact ih here (by rwa [shift])
  | @token pos c w rest k ts _ _ _ ih =>
    obtain ⟨other, later⟩ := List.forall_mem_cons.mp outside
    -- behind the bytes of the first token
    have behind : w.length + 1 ≤ i := by
      dsimp only at other
      omega
    obtain ⟨m, rfl⟩ := Nat.exists_eq_add_of_le behind
    have shift : pos + w.length + 1 + m = pos + (w.length + 1 + m) := by omega
    refine ih (i := m) ?_ (by rwa [shift])
    have skipped : (c :: (w ++ rest))[w.length + 1 + m]? = rest[m]? := by
      rw [← List.cons_append, List.getElem?_append_right (by simp)]
      simp
    rwa [← skipped]

/-- How the tokens before the end of input take up a text. -/
structure Partition (source : Bytes) (us : List Token) : Prop where
  lexemes : ∀ t ∈ us, Written t.kind t.value
  values : ∀ t ∈ us, t.span.text source = t.value
  filled : ∀ t ∈ us, 0 ≤ t.span.min ∧ t.span.min < t.span.max ∧ t.span.max ≤ source.length
  ordered : us.Pairwise fun t u => t.span.max ≤ u.span.min
  gaps : ∀ (i : Nat) b, source[i]? = some b → (∀ t ∈ us, ¬ (t.span.min ≤ i ∧ i < t.span.max)) →
    Bytes.isBlank b = true
  numbers : ∀ t ∈ us, t.kind = .number → ∀ b, source[t.span.max.toNat]? = some b →
    isDigit b = false ∧ b ≠ 46
  words : ∀ t ∈ us, t.kind = .identifier → ∀ b, source[t.span.max.toNat]? = some b →
    isLetter b = false

theorem Placed.behind {source before after : Bytes} {t : Token} (placed : Placed source t before after)
    {b : UInt8} (next : source[t.span.max.toNat]? = some b) : b ∈ after.head? := by
  have count : ((before.length : Int) + t.value.length).toNat = (before ++ t.value).length := by
    rw [List.length_append]
    omega
  rw [placed.span, placed.whole, ← List.append_assoc] at next
  dsimp only at next
  rw [count, List.getElem?_append_right le_rfl, Nat.sub_self] at next
  rwa [List.head?_eq_getElem?]

theorem Placed.filled {source before after : Bytes} {t : Token} (placed : Placed source t before after) :
    0 ≤ t.span.min ∧ t.span.min < t.span.max ∧ t.span.max ≤ source.length := by
  obtain ⟨b, v, value⟩ := written_filled placed.written
  rw [placed.span, placed.whole]
  simp [value]

theorem ordered_of_laid {lo : Int} {us : List Token} (laid : Parser.Laid lo us) :
    us.Pairwise fun t u => t.span.max ≤ u.span.min := by
  induction us generalizing lo with
  | nil => exact .nil
  | cons t us ih =>
    obtain ⟨-, rest⟩ := laid
    exact .cons (fun u found => (rest.all_from u found).low) (ih rest)

theorem partition_of_lexes {source : Bytes} {us : List Token}
    (lexes : Lexes 0 source (us ++ [Token.finish source.length])) (proper : ∀ t ∈ us, t.kind ≠ .eof) :
    Partition source us := by
  have placed (t : Token) (found : t ∈ us) : ∃ before after, Placed source t before after :=
    lexes.placed [] rfl (List.mem_append_left _ found) (proper t found)
  constructor
  · intro t found
    obtain ⟨before, after, stands⟩ := placed t found
    exact stands.written
  · intro t found
    obtain ⟨before, after, stands⟩ := placed t found
    rw [stands.span, stands.whole]
    exact text_part before t.value after
  · intro t found
    obtain ⟨before, after, stands⟩ := placed t found
    exact stands.filled
  · exact ordered_of_laid (Parser.laid_append.mp lexes.laid).1
  · intro i b here outside
    refine lexes.gaps here (List.forall_mem_append.mpr ⟨by simpa using outside, ?_⟩)
    simp [Token.finish]
  · intro t found number b next
    obtain ⟨before, after, stands⟩ := placed t found
    have numeral : Numeral t.value := by simpa [number, Written] using stands.written
    exact ⟨stands.longest.digit numeral b (stands.behind next), stands.pointless b (stands.behind next)⟩
  · intro t found identifier b next
    obtain ⟨before, after, stands⟩ := placed t found
    have word : Word t.value := by simpa [identifier, Written] using stands.written
    exact stands.longest.letter word b (stands.behind next)

end Accepting

section Progress

def place (source : Bytes) (p : Nat) : Lexer := ⟨p, source.drop p⟩

variable {source : Bytes} {p : Nat}

theorem skipBlanks_place (source : Bytes) (p : Nat) :
    (place source p).skipBlanks = place source (p + run Bytes.isBlank (source.drop p)) := by
  simp [place, skipBlanks, List.drop_drop]

theorem next_place (within : p ≤ source.length) :
    ∃ q ≤ source.length, (place source p).next.2 = place source q ∧
      ((place source p).next.1 = .ok (Token.finish source.length) ∧ q = source.length ∨ p < q) := by
  have most := run_le Bytes.isBlank (source.drop p)
  rw [List.length_drop] at most
  unfold next
  rw [skipBlanks_place]
  generalize run Bytes.isBlank (source.drop p) = n at most
  cases ahead : source.drop (p + n) with
  | nil =>
    have ends : source.length = p + n := le_antisymm (List.drop_eq_nil_iff.mp ahead) (by omega)
    have here : (place source (p + n)).rest = [] := ahead
    rw [here, ends]
    exact ⟨p + n, le_rfl, rfl, .inl ⟨rfl, rfl⟩⟩
  | cons b rest =>
    have here : (place source (p + n)).rest = b :: rest := ahead
    have long := congrArg List.length ahead
    rw [List.length_drop, List.length_cons] at long
    have size := lexeme_le b rest
    rw [here]
    refine ⟨p + n + (lexeme b rest).2 + 1, by omega, ?_, .inr (by omega)⟩
    have behind : rest.drop (lexeme b rest).2 = source.drop (p + n + (lexeme b rest).2 + 1) := by
      rw [Nat.add_assoc, ← List.drop_drop, ahead, List.drop_succ_cons]
    dsimp only [token]
    rw [behind]
    rfl

theorem next_reaches_end (within : p ≤ source.length) :
    ∃ n, ((fun l : Lexer => l.next.2)^[n] (place source p)).next.1 =
      .ok (Token.finish source.length) := by
  -- on what is left of the text
  obtain ⟨m, left⟩ : ∃ m, source.length - p = m := ⟨_, rfl⟩
  induction m using Nat.strong_induction_on generalizing p with
  | _ m ih =>
    obtain ⟨q, inside, moved, ⟨ends, -⟩ | further⟩ := next_place within
    · exact ⟨0, ends⟩
    · obtain ⟨n, reached⟩ := ih (source.length - q) (by omega) inside rfl
      refine ⟨n + 1, ?_⟩
      rwa [Function.iterate_succ_apply, moved]

end Progress

end Lexer

/-- A text is scanned if and only if it is a sequence of blanks and longest lexemes. Its tokens are then
the bytes they span, in order, with blanks between them and the end of input behind; else the complaint
is about the first lexeme that cannot be completed. Whatever place of a text the scanner stands at, its
calls move on until they return the end of input. -/
theorem scan_partitions (source : Bytes) :
    ((∃ ts, scan source = .ok ts) ↔ Lexer.Cuts source []) ∧
    (∀ ts, scan source = .ok ts → ∃ us, ts = us ++ [Token.finish source.length] ∧
      (∀ t ∈ us, t.kind ≠ .eof) ∧ Lexer.Partition source us) ∧
    (∀ c, scan source = .error c → Lexer.Halts 0 source c) ∧
    ∀ p ≤ source.length,
      (∃ q ≤ source.length, (Lexer.place source p).next.2 = Lexer.place source q ∧
        ((Lexer.place source p).next.1 = .ok (Token.finish source.length) ∧ q = source.length ∨
          p < q)) ∧
      ∃ n, ((fun l : Lexer => l.next.2)^[n] (Lexer.place source p)).next.1 =
        .ok (Token.finish source.length) := by
  refine ⟨⟨?_, ?_⟩, ?_, ?_, ?_⟩
  · rintro ⟨ts, scanned⟩
    exact (Lexer.lexes_of_scan scanned).cuts
  · intro cuts
    obtain ⟨ts, lexes⟩ := Lexer.lexes_of_cuts cuts 0
    exact ⟨ts, Lexer.scan_of_lexes lexes⟩
  · intro ts scanned
    have lexes := Lexer.lexes_of_scan scanned
    obtain ⟨us, rfl, proper⟩ := lexes.last
    rw [Nat.zero_add] at lexes ⊢
    exact ⟨us, rfl, proper, Lexer.partition_of_lexes lexes proper⟩
  · intro c failed
    exact Lexer.halts_of_scan failed
  · intro p within
    exact ⟨Lexer.next_place within, Lexer.next_reaches_end within⟩

end DistanceField
