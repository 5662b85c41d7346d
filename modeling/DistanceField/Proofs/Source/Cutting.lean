import DistanceField.Proofs.Source.Lexing
import DistanceField.Proofs.Source.Spans
import DistanceField.Proofs.Text.Decoding

/-! A text that is cut at its tokens is scanned as those tokens, so what a function spans is read as
that function. -/
namespace DistanceField

namespace Lexer

/-- A text from an offset on, with its tokens up to the end of input. -/
inductive Lexes : Nat → Bytes → List Token → Prop where
  | finish {pos : Nat} : Lexes pos [] [Token.finish pos]
  | blank {pos : Nat} {b : UInt8} {rest : Bytes} {ts : List Token} (blank : Bytes.isBlank b = true)
      (more : Lexes (pos + 1) rest ts) : Lexes pos (b :: rest) ts
  | token {pos : Nat} {b : UInt8} {w rest : Bytes} {k : Kind} {ts : List Token}
      (solid : Bytes.isBlank b = false) (found : lexeme b (w ++ rest) = (.ok k, w.length))
      (more : Lexes (pos + w.length + 1) rest ts) :
      Lexes pos (b :: (w ++ rest)) (⟨k, b :: w, ⟨pos, pos + w.length + 1⟩⟩ :: ts)

theorem run_le (p : UInt8 → Bool) (s : Bytes) : run p s ≤ s.length :=
  (List.takeWhile_prefix p).length_le

theorem lexeme_le (b : UInt8) (rest : Bytes) : (lexeme b rest).2 ≤ rest.length := by
  unfold lexeme
  cases classify b with
  | letter => exact run_le isLetter rest
  | mark => exact Nat.zero_le _
  | digit =>
    have whole := run_le isDigit rest
    dsimp only
    split
    · next more point =>
      have part := run_le isDigit more
      have long := congrArg List.length point
      rw [List.length_drop, List.length_cons] at long
      split <;> dsimp only <;> omega
    · exact whole
  | unknown => exact Nat.sub_le_of_le_add (Utf8.rune_first b rest).size.2

theorem lexeme_split (b : UInt8) (text : Bytes) :
    (∃ trouble n, lexeme b text = (.error trouble, n)) ∨
      ∃ k w rest, text = w ++ rest ∧ lexeme b (w ++ rest) = (.ok k, w.length) := by
  cases found : lexeme b text with
  | mk outcome n =>
    cases outcome with
    | error trouble => exact .inl ⟨trouble, n, rfl⟩
    | ok k =>
      refine .inr ⟨k, text.take n, text.drop n, (List.take_append_drop n text).symm, ?_⟩
      rw [List.take_append_drop, found,
        List.length_take_of_le (by simpa [found] using lexeme_le b text)]

theorem scan_refused {b : UInt8} {rest : Bytes} {trouble : Trouble} {n : Nat}
    (solid : Bytes.isBlank b = false) (found : lexeme b rest = (.error trouble, n)) (pos : Nat) :
    (scan ⟨pos, b :: rest⟩).1 = .error ⟨trouble, ⟨pos, pos + n + 1⟩⟩ := by
  have here := skipBlanks_solid solid pos rest
  rw [scan_step (l := ⟨pos, b :: rest⟩) (by rw [here]), here, token, found]

theorem scan_taken {b : UInt8} {w rest : Bytes} {k : Kind} (solid : Bytes.isBlank b = false)
    (found : lexeme b (w ++ rest) = (.ok k, w.length)) (pos : Nat) :
    (scan ⟨pos, b :: (w ++ rest)⟩).1 =
      (scan ⟨pos + w.length + 1, rest⟩).1.map (⟨k, b :: w, ⟨pos, pos + w.length + 1⟩⟩ :: ·) := by
  have here := skipBlanks_solid solid pos (w ++ rest)
  rw [scan_step (l := ⟨pos, b :: (w ++ rest)⟩) (by rw [here]), here]
  simp only [token, found, List.take_left, List.drop_left]

/-- What holds of a text is shown as the scanner goes through it: at its end, behind a blank, where
the scanner fails, and behind what it takes. -/
@[elab_as_elim]
theorem scan_induction {P : Nat → Bytes → Prop} (finish : ∀ pos, P pos [])
    (blank : ∀ pos b rest, Bytes.isBlank b = true → P (pos + 1) rest → P pos (b :: rest))
    (refused : ∀ pos b rest trouble n, Bytes.isBlank b = false →
      lexeme b rest = (.error trouble, n) → P pos (b :: rest))
    (taken : ∀ pos b w rest k, Bytes.isBlank b = false →
      lexeme b (w ++ rest) = (.ok k, w.length) → P (pos + w.length + 1) rest →
        P pos (b :: (w ++ rest))) (pos : Nat) (text : Bytes) : P pos text := by
  -- on the length of the text, as a token may take several bytes
  obtain ⟨n, size⟩ : ∃ n, text.length = n := ⟨_, rfl⟩
  induction n using Nat.strong_induction_on generalizing pos text with
  | _ n ih =>
    cases text with
    | nil => exact finish pos
    | cons b text =>
      rw [List.length_cons] at size
      cases is : Bytes.isBlank b with
      | true => exact blank pos b text is (ih text.length (by omega) _ _ rfl)
      | false =>
        rcases lexeme_split b text with ⟨trouble, m, found⟩ | ⟨k, w, rest, rfl, found⟩
        · exact refused pos b text trouble m is found
        · rw [List.length_append] at size
          exact taken pos b w rest k is found (ih rest.length (by omega) _ _ rfl)

theorem lexes_of_scan {pos : Nat} {text : Bytes} {ts : List Token}
    (scanned : (scan ⟨pos, text⟩).1 = .ok ts) : Lexes pos text ts := by
  induction pos, text using scan_induction generalizing ts with
  | finish pos =>
    rw [scan_end (l := ⟨pos, []⟩) rfl] at scanned
    cases scanned
    exact .finish
  | blank pos b rest blank ih =>
    rw [scan_blank blank] at scanned
    exact .blank blank (ih scanned)
  | refused pos b rest trouble n solid found =>
    rw [scan_refused solid found] at scanned
    cases scanned
  | taken pos b w rest k solid found ih =>
    rw [scan_taken solid found] at scanned
    cases more : (scan ⟨pos + w.length + 1, rest⟩).1 with
    | error c =>
      rw [more] at scanned
      cases scanned
    | ok us =>
      rw [more] at scanned
      cases scanned
      exact .token solid found (ih more)

theorem scan_of_lexes {pos : Nat} {text : Bytes} {ts : List Token} (lexes : Lexes pos text ts) :
    (scan ⟨pos, text⟩).1 = .ok ts := by
  induction lexes with
  | @finish pos => exact scan_end (l := ⟨pos, []⟩) rfl
  | blank blank _ ih => rw [scan_blank blank, ih]
  | token solid found _ ih =>
    rw [scan_taken solid found, ih]
    rfl

theorem Lexes.laid {pos : Nat} {text : Bytes} {ts : List Token} (lexes : Lexes pos text ts) :
    Parser.Laid pos ts := by
  have later {a b : Int} {ts : List Token} (le : a ≤ b) (laid : Parser.Laid b ts) :
      Parser.Laid a ts := by
    cases ts with
    | nil => trivial
    | cons t ts => exact ⟨⟨le.trans laid.1.low, laid.1.filled⟩, laid.2⟩
  induction lexes with
  | finish => exact ⟨⟨le_rfl, le_rfl⟩, trivial⟩
  | blank _ _ ih => exact later (by omega) ih
  | token _ _ _ ih => exact ⟨⟨le_rfl, by dsimp only; omega⟩, later (by dsimp only; omega) ih⟩

theorem run_cut {p : UInt8 → Bool} {w m back : Bytes}
    (longest : run p (w ++ (m ++ back)) = w.length) : run p (w ++ m) = w.length := by
  have all : ∀ b ∈ w, p b = true := by
    have taken := take_run p (w ++ (m ++ back))
    rwa [longest, List.take_left] at taken
  rw [run_append all] at longest ⊢
  cases m with
  | nil => rfl
  | cons c m =>
    have none : run p (c :: (m ++ back)) = 0 := by simpa using longest
    have other : p c = false := by
      by_contra more
      rw [run, List.takeWhile_cons_of_pos (by simpa using more), List.length_cons] at none
      cases none
    rw [run_stop fun b first => Option.some.inj first ▸ other, Nat.add_zero]

theorem point_inside {w x more : Bytes} {part : Nat}
    (point : (w ++ x).drop (run isDigit (w ++ x)) = 46 :: more)
    (count : w.length = run isDigit (w ++ x) + 1 + part) :
    ∃ ds es, w = ds ++ 46 :: es ∧ Read.AllDigits ds ∧ run isDigit (w ++ x) = ds.length := by
  have all := take_run isDigit (w ++ x)
  generalize run isDigit (w ++ x) = n at *
  rw [List.drop_append_of_le_length (by omega)] at point
  rw [List.take_append_of_le_length (by omega)] at all
  cases behind : w.drop n with
  | nil =>
    have long := congrArg List.length behind
    rw [List.length_drop, List.length_nil] at long
    omega
  | cons c es =>
    rw [behind] at point
    obtain rfl : c = 46 := (List.cons.inj point).1
    refine ⟨w.take n, es, ?_, all, (List.length_take_of_le (by omega)).symm⟩
    rw [← behind, List.take_append_drop]

/-- A lexeme stays what it is when the text is cut behind it. -/
theorem lexeme_cut {b : UInt8} {w m back : Bytes} {k : Kind}
    (found : lexeme b (w ++ (m ++ back)) = (.ok k, w.length)) :
    lexeme b (w ++ m) = (.ok k, w.length) := by
  rw [lexeme] at found ⊢
  cases of : classify b with
  | letter =>
    rw [of] at found
    obtain ⟨same, longest⟩ := Prod.mk.inj found
    exact Prod.ext same (run_cut longest)
  | mark j =>
    rw [of] at found
    exact found
  | digit =>
    rw [of] at found
    dsimp only at found ⊢
    split at found
    · next more point =>
      split at found
      · cases found
      · next some =>
        obtain ⟨same, count⟩ := Prod.mk.inj found
        cases same
        obtain ⟨ds, es, rfl, all, digits⟩ := point_inside point count.symm
        rw [digits, List.append_assoc, List.drop_left, List.cons_append] at point
        obtain rfl := (List.cons.inj point).2
        rw [digits, List.length_append, List.length_cons] at count
        have long : run isDigit (es ++ (m ++ back)) = es.length := by omega
        have part := run_cut long
        have kept : run isDigit (ds ++ 46 :: (es ++ m)) = ds.length := by
          rw [run_digits all, run_stop fun b first => Option.some.inj first ▸ rfl, Nat.add_zero]
        have filled : ¬ (run isDigit (es ++ m) == 0) = true := by
          rw [part, ← long]
          exact some
        rw [List.append_assoc, List.cons_append, kept, List.drop_left]
        change (if (run isDigit (es ++ m) == 0) = true then _
          else (_, ds.length + 1 + run isDigit (es ++ m))) = _
        rw [if_neg filled, part, List.length_append, List.length_cons]
        congr 1
        omega
    · next other =>
      obtain ⟨same, longest⟩ := Prod.mk.inj found
      cases same
      rw [longest, List.drop_left] at other
      rw [run_cut longest, List.drop_left]
      split
      · next more => exact absurd rfl (other (more ++ back))
      · rfl
  | unknown =>
    rw [of] at found
    cases found

theorem Lexes.front {pos : Nat} {text : Bytes} {before ts : List Token} {t : Token}
    (lexes : Lexes pos text (before ++ t :: ts)) (proper : t.kind ≠ .eof) :
    ∃ front rest, text = front ++ rest ∧ t.span.min = pos + front.length ∧
      Lexes (pos + front.length) rest (t :: ts) := by
  generalize whole : before ++ t :: ts = us at lexes
  induction lexes generalizing before with
  | finish =>
    cases before with
    | nil =>
      cases whole
      exact absurd rfl proper
    | cons u before => simp at whole
  | @blank pos b rest us blank more ih =>
    obtain ⟨front, rest, rfl, starts, lexes⟩ := ih whole
    refine ⟨b :: front, rest, rfl, ?_, ?_⟩
    · rw [starts, List.length_cons]
      omega
    · rw [List.length_cons, Nat.add_comm front.length, ← Nat.add_assoc]
      exact lexes
  | @token pos b w rest k us solid found more ih =>
    cases before with
    | nil =>
      cases whole
      exact ⟨[], _, rfl, by simp, .token solid found more⟩
    | cons u before =>
      obtain ⟨front, rest, rfl, starts, lexes⟩ := ih (List.cons.inj whole).2
      have count : pos + (b :: (w ++ front)).length = pos + w.length + 1 + front.length := by
        rw [List.length_cons, List.length_append]
        omega
      refine ⟨b :: (w ++ front), rest, by simp, ?_, ?_⟩
      · rw [starts]
        omega
      · rw [count]
        exact lexes

theorem Lexes.back {place pos k : Nat} {text : Bytes} {us after : List Token}
    (lexes : Lexes place text (us ++ after)) (start : pos + k = place)
    (clean : ∀ t ∈ us, t.kind ≠ .eof) :
    ∃ part back, text = part ++ back ∧ Parser.reach place us = place + part.length ∧
      Lexes pos part (us.map (Token.down k) ++ [Token.finish (pos + part.length : Nat)]) := by
  have none (place pos : Nat) (text : Bytes) : ∃ part back, text = part ++ back ∧
      Parser.reach place [] = place + part.length ∧
      Lexes pos part ([] ++ [Token.finish (pos + part.length : Nat)]) :=
    ⟨[], text, rfl, by simp [Parser.reach], .finish⟩
  generalize whole : us ++ after = ts at lexes
  induction lexes generalizing us pos with
  | finish =>
    cases us with
    | nil => exact none _ pos _
    | cons t us =>
      obtain rfl := (List.cons.inj whole).1
      exact absurd rfl (clean _ (List.mem_cons_self ..))
  | @blank place b rest ts blank more ih =>
    cases us with
    | nil => exact none _ pos _
    | cons t us =>
      have next : pos + 1 + k = place + 1 := by omega
      obtain ⟨part, back, rfl, reached, lexes⟩ := ih next clean whole
      refine ⟨b :: part, back, rfl, ?_, .blank blank ?_⟩
      · rw [Parser.reach] at reached ⊢
        rw [reached, List.length_cons]
        push_cast
        omega
      · rw [List.length_cons, Nat.add_comm part.length, ← Nat.add_assoc]
        exact lexes
  | @token place b w rest kind ts solid found more ih =>
    cases us with
    | nil => exact none _ pos _
    | cons t us =>
      obtain ⟨rfl, later⟩ := List.cons.inj whole
      obtain ⟨-, proper⟩ := List.forall_mem_cons.mp clean
      have next : pos + w.length + 1 + k = place + w.length + 1 := by omega
      obtain ⟨part, back, rfl, reached, lexes⟩ := ih next proper later
      push_cast at reached
      refine ⟨b :: (w ++ part), back, by simp, ?_, ?_⟩
      · rw [Parser.reach, reached, List.length_cons, List.length_append]
        push_cast
        omega
      · have moved : Token.down k ⟨kind, b :: w, ⟨place, place + w.length + 1⟩⟩ =
            ⟨kind, b :: w, ⟨pos, pos + w.length + 1⟩⟩ := by
          simp only [Token.down, Interval.down, ← start]
          congr 2 <;> push_cast <;> omega
        have count : pos + (b :: (w ++ part)).length = pos + w.length + 1 + part.length := by
          rw [List.length_cons, List.length_append]
          omega
        rw [List.map_cons, moved, count]
        exact .token solid (lexeme_cut found) lexes

end Lexer

theorem text_part (front part back : Bytes) :
    Interval.text ⟨front.length, front.length + part.length⟩ (front ++ (part ++ back)) = part := by
  have filled : Interval.isEmpty ⟨front.length, front.length + part.length⟩ = false := by
    simp only [Interval.isEmpty, Bool.or_eq_false_iff, decide_eq_false_iff_not]
    omega
  have stop : ((front.length : Int) + part.length).toNat = (front ++ part).length := by
    rw [List.length_append]
    omega
  rw [Interval.text, filled, stop, ← List.append_assoc, List.take_left]
  simp

/-- The text that a function of an accepted document spans is accepted as a document of that function
alone, with all places counted from where it starts. -/
theorem parse_span {strict : Bool} {source : Bytes} {d : Document}
    (accepted : (parse strict source).result = .ok d) {f : Function} (found : f ∈ d.functions) :
    (parse strict (f.span.text source)).result =
      .ok ⟨[f.down f.span.min], f.span.down f.span.min⟩ := by
  unfold parse at accepted
  cases scanned : scan source with
  | error c =>
    rw [scanned] at accepted
    cases accepted
  | ok ts =>
    rw [scanned] at accepted
    obtain ⟨before, used, after, next, rfl, run⟩ := parseTokens_segments accepted found
    obtain ⟨t, us, whole, -⟩ := run.starts
    have lexes := Lexer.lexes_of_scan scanned
    rw [whole, List.cons_append] at lexes
    have proper : t.kind ≠ .eof := run.clean t (whole ▸ List.mem_cons_self ..)
    obtain ⟨front, rest, rfl, starts, behind⟩ := lexes.front proper
    rw [Nat.zero_add, ← List.cons_append, ← whole] at behind
    obtain ⟨part, back, rfl, reached, cut⟩ := behind.back (Nat.zero_add _) run.clean
    have low : (0 : Int) ≤ front.length := Int.natCast_nonneg _
    have laid := (Parser.laid_append.mp behind.laid).1
    have span : f.span = ⟨front.length, front.length + part.length⟩ := by
      obtain ⟨u, vs, same, span⟩ := run.spans low laid
      obtain rfl := (List.cons.inj (whole.symm.trans same)).1
      change f.span = _ at span
      rw [span, starts, reached]
      simp
    obtain ⟨moved, -⟩ := run.down low laid.all_from trivial
    rw [Nat.zero_add] at cut
    have rescanned : scan part = _ := Lexer.scan_of_lexes cut
    have read := parseTokens_single moved (show (Token.finish part.length).kind = .eof from rfl)
    have own : (f.down front.length).span = f.span.down front.length := by
      cases f
      rfl
    rw [own] at read
    rw [span, text_part, parse, rescanned]
    rw [span] at read
    exact read

/-- A function in parentheses, with a repeated parameter, a needless comma and an operand. -/
def nested : Bytes := "a \x7b (\n b (x=(1)*2, x=-3,) \x7bc\x7d) d\x7d"

theorem parse_span_nested :
    ∃ d f, (parse false nested).result = .ok d ∧ f ∈ d.functions ∧
      f.span.text nested = ("b (x=(1)*2, x=-3,) \x7bc\x7d" : Bytes) ∧
      (parse false (f.span.text nested)).result =
        .ok ⟨[f.down f.span.min], f.span.down f.span.min⟩ := by
  have listed : (parse false nested).result.toOption.map (fun d => d.functions.map Function.span) =
      some [⟨0, 33⟩, ⟨7, 29⟩, ⟨27, 28⟩, ⟨31, 32⟩] := by decide +kernel
  cases read : (parse false nested).result with
  | error c =>
    rw [read] at listed
    cases listed
  | ok d =>
    rw [read] at listed
    have spans : d.functions.map Function.span = _ := Option.some.inj listed
    have second : (⟨7, 29⟩ : Interval) ∈ d.functions.map Function.span := by
      rw [spans]
      decide
    obtain ⟨f, found, span⟩ := List.mem_map.mp second
    refine ⟨d, f, rfl, found, ?_, parse_span read found⟩
    rw [span]
    decide +kernel

end DistanceField
