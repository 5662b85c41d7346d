import DistanceField.Proofs.Number.Reading

/-! Every double is read back from its text, and the text of a finite one is a number of JSON. -/
namespace DistanceField.Read

open Double Decimal

theorem finish_minus {x v : Float} (read : finish false x = ⟨v, none⟩) :
    finish true x = ⟨-v, none⟩ := by
  unfold finish at read ⊢
  dsimp only at read ⊢
  split at read
  · cases read
  · next small =>
    cases read
    rw [if_neg small]
    rfl

theorem double_minus {c : UInt8} (digit : isDigit c = true) {rest : Bytes} {v : Float}
    (read : double (c :: rest) = ⟨v, none⟩) : double (45 :: c :: rest) = ⟨-v, none⟩ := by
  obtain ⟨plain, unsigned⟩ := double_of_digit digit rest
  have word : special? (45 :: c :: rest) = none := by
    obtain ⟨-, inf, infinity⟩ := digit_no_word digit (rest.map Bytes.lowerByte)
    have lower : (45 :: c :: rest).map Bytes.lowerByte = 45 :: c :: rest.map Bytes.lowerByte := by
      rw [List.map_cons, List.map_cons, lowerByte_digit digit]
      rfl
    have split : sign (45 :: c :: rest.map Bytes.lowerByte) =
        (true, c :: rest.map Bytes.lowerByte) := rfl
    have nan : ((45 :: c :: rest.map Bytes.lowerByte) == ("nan" : Bytes)) = false := by
      rw [beq_eq_false_iff_ne]
      rintro ⟨⟩
    unfold special?
    simp only [lower, split, nan, inf, infinity]
    rfl
  have signed : sign (45 :: c :: rest) = (true, c :: rest) := rfl
  rw [plain, numeric, unsigned] at read
  rw [double, word, numeric, signed]
  dsimp only at read ⊢
  -- all but the sign is read in the same way
  generalize marked (c :: rest) = hex at read ⊢
  generalize digits (if hex = true then 16 else 10) {} _ = run at read ⊢
  generalize exponent? _ hex run.2 = power at read ⊢
  cases power with
  | none => split at read <;> cases read
  | some power =>
    dsimp only at read ⊢
    split_ifs at read ⊢
    · cases read
    · cases read
    · exact finish_minus read
    · exact finish_minus read

end DistanceField.Read

namespace DistanceField.Decimal

open Double Read

/-- The digits before the point: at least one, and a zero in front only by itself. -/
structure Whole (w : Bytes) : Prop where
  all : AllDigits w
  filled : w ≠ []
  lead : w = [48] ∨ ∀ c ∈ w.head?, c ≠ 48

inductive Power : Bytes → Prop where
  | absent : Power []
  | present {sign : UInt8} {ds : Bytes} (signed : sign = 43 ∨ sign = 45) (all : AllDigits ds)
      (filled : ds ≠ []) : Power (101 :: sign :: ds)

inductive Unsigned : Bytes → Prop where
  | intro {whole part tail : Bytes} (front : Whole whole) (more : AllDigits part)
      (power : Power tail) : Unsigned (spelled whole part ++ tail)

theorem whole_digit {c : UInt8} (digit : isDigit c = true) : Whole [c] := by
  refine ⟨by simpa [AllDigits] using digit, List.cons_ne_nil _ _, ?_⟩
  by_cases zero : c = 48
  · exact .inl (by rw [zero])
  · exact .inr (by simpa using zero)

theorem power_exponent (e : Int) (n : Nat) :
    Power (101 :: (if e < 0 then 45 else 43) :: (zeros n ++ Bytes.ofNat e.natAbs)) := by
  refine .present ?_ ((allDigits_zeros n).append fun _ => isDigit_of_mem_ofNat) ?_
  · split
    · exact .inr rfl
    · exact .inl rfl
  · simp [Bytes.ofNat]

theorem unsigned_scientific {d : Decimal} (all : AllDigits d.digits) (w : Nat) :
    Unsigned (d.scientific w) := by
  have front : ∃ c part, d.mantissa = spelled [c] part ∧ isDigit c = true ∧ AllDigits part := by
    obtain ⟨digits, point⟩ := d
    cases digits with
    | nil => exact ⟨48, [], rfl, rfl, List.forall_mem_nil _⟩
    | cons c part =>
      obtain ⟨digit, more⟩ := List.forall_mem_cons.mp all
      exact ⟨c, part, by cases part <;> rfl, digit, more⟩
  obtain ⟨c, part, text, digit, more⟩ := front
  rw [scientific, text, List.append_assoc]
  exact .intro (whole_digit digit) more (power_exponent _ _)

theorem unsigned_positional {d : Decimal} (all : AllDigits d.digits)
    (lead : ∀ c ∈ d.digits.head?, c ≠ 48) (inside : d.digits = [] → d.point ≤ 0) :
    Unsigned d.positional := by
  have form : ∃ whole part, d.positional = spelled whole part ∧ Whole whole ∧ AllDigits part := by
    unfold positional
    by_cases low : d.point ≤ 0
    · rw [if_pos low, if_pos low]
      refine ⟨[48], _, rfl, whole_digit rfl, ?_⟩
      split
      · exact List.forall_mem_nil _
      · exact (allDigits_zeros _).append all
    · rw [if_neg low, if_neg low]
      refine ⟨_, _, rfl, ?_, all.drop _⟩
      obtain ⟨k, places⟩ : ∃ k, d.point.toNat = k + 1 := ⟨d.point.toNat - 1, by omega⟩
      cases digits : d.digits with
      | nil => exact absurd (inside digits) low
      | cons c ds =>
        rw [digits] at all lead
        rw [places]
        exact ⟨(all.take _).append (allDigits_zeros _), List.cons_ne_nil _ _, .inr lead⟩
  obtain ⟨whole, part, text, front, more⟩ := form
  rw [text, ← List.append_nil (spelled whole part)]
  exact .intro front more .absent

theorem head_of_leads {ds : Bytes} (all : AllDigits ds)
    (leads : ds ≠ [] → 10 ^ (ds.length - 1) ≤ numeral ds) : ∀ c ∈ ds.head?, c ≠ 48 := by
  cases ds with
  | nil => simp
  | cons c ds =>
    have least := leads (List.cons_ne_nil _ _)
    rw [numeral_cons] at least
    have less : numeral ds < 10 ^ ds.length :=
      numeral_lt fun x hx => all x (List.mem_cons_of_mem _ hx)
    rintro x ⟨⟩ rfl
    simp at least
    omega

theorem shortest_head {m : Nat} {e : Int} : ∀ c ∈ (shortest m e).digits.head?, c ≠ 48 :=
  head_of_leads isDigit_of_mem_shortest shortest_leads

theorem ofNat_head {n : Nat} (positive : n ≠ 0) : ∀ c ∈ (Bytes.ofNat n).head?, c ≠ 48 :=
  head_of_leads (fun _ => isDigit_of_mem_ofNat) fun _ => by
    rw [numeral_ofNat]
    exact ofNat_leads positive

theorem unsigned_write {m : Nat} {e : Int} (fits : Fits m e) (l : Layout) :
    Unsigned (l.write (shortest m e)) := by
  unfold Layout.write
  split
  · exact unsigned_scientific isDigit_of_mem_shortest _
  · refine unsigned_positional isDigit_of_mem_shortest shortest_head fun empty => ?_
    by_cases positive : m = 0
    · rw [positive]
      exact le_rfl
    · exact absurd empty (shortest_filled positive fits)

theorem Unsigned.head {text : Bytes} (unsigned : Unsigned text) :
    ∃ c rest, text = c :: rest ∧ isDigit c = true := by
  cases unsigned with
  | @intro whole part tail front more power =>
    cases whole with
    | nil => exact absurd rfl front.filled
    | cons c whole =>
      refine ⟨c, spelled whole part ++ tail, ?_, front.all c (List.mem_cons_self ..)⟩
      unfold spelled
      split <;> rfl

theorem text_finite {v : Float} {negative : Bool} {m : Nat} {e : Int}
    (finite : view v = .finite negative m e) (l : Layout) :
    text l v = signed negative (l.write (shortest m e)) := by
  rw [text, finite]

/-- Zeros of both signs, infinities and the double that is no number are among them. -/
theorem double_text (l : Layout) (v : Float) : double (text l v) = ⟨v, none⟩ := by
  cases look : view v with
  | nan =>
    have same : v = nan := view_injective look
    rw [text, look, same]
    rfl
  | infinite negative =>
    rw [text, look]
    cases negative with
    | false =>
      have same : v = infinity := view_injective look
      rw [same]
      rfl
    | true =>
      have same : v = -infinity := view_injective look
      rw [same]
      rfl
  | finite negative m e =>
    rw [text_finite look]
    cases negative with
    | false => exact double_write look l
    | true =>
      have opposite : view (-v) = .finite false m e := by
        rw [view_neg, look]
        rfl
      obtain ⟨c, rest, text, digit⟩ := (unsigned_write (fits_of_view look) l).head
      have read := double_write opposite l
      rw [text] at read
      rw [signed, if_pos rfl, text, double_minus digit read, neg_neg_eq]

end DistanceField.Decimal
