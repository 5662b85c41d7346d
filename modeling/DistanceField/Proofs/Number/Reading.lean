import DistanceField.Proofs.Number.Shortest

/-! Texts of doubles read back. -/
namespace DistanceField.Read

open Double Decimal

def AllDigits (ds : Bytes) : Prop := ∀ c ∈ ds, isDigit c = true

theorem isDigit_bounds {c : UInt8} (digit : isDigit c = true) : 48 ≤ c.toNat ∧ c.toNat ≤ 57 := by
  simpa [isDigit, UInt8.le_iff_toNat_le] using digit

theorem numeral_cons (c : UInt8) (ds : Bytes) :
    Decimal.numeral (c :: ds) = (c.toNat - 48) * 10 ^ ds.length + Decimal.numeral ds := by
  rw [Decimal.numeral, List.foldl_cons, numeral_from]
  ring

theorem digits_run {ds : Bytes} (all : AllDigits ds) (d : Digits) (rest : Bytes) :
    digits 10 d (ds ++ rest) =
      digits 10 { d with value := d.value * 10 ^ ds.length + numeral ds,
                         any := d.any || !ds.isEmpty,
                         places := if d.dot then d.places + ds.length else d.places } rest := by
  induction ds generalizing d with
  | nil => simp [numeral]
  | cons c ds ih =>
    have digit := all c (List.mem_cons_self ..)
    obtain ⟨low, high⟩ := isDigit_bounds digit
    have underscore : (c == 95) = false := by
      rw [beq_eq_false_iff_ne]; rintro rfl; simp at high
    have dot : (c == 46) = false := by
      rw [beq_eq_false_iff_ne]; rintro rfl; simp at low
    have value : digit? 10 c = some (c.toNat - 48) := by simp [digit?, digit]
    rw [List.cons_append, digits, underscore, dot, value]
    simp only [Bool.false_eq_true, if_false]
    rw [ih (fun x hx => all x (List.mem_cons_of_mem _ hx))]
    congr 1
    cases d with
    | mk value places dot any underscore =>
      simp only [Digits.mk.injEq, numeral_cons, List.length_cons, List.isEmpty_cons, Bool.not_false,
        Bool.or_true, Bool.true_or, and_true]
      refine ⟨by ring, ?_⟩
      split
      · omega
      · rfl

/-- A number as it is written: digits, and behind a point some more. -/
def spelled (whole part : Bytes) : Bytes := if part.isEmpty then whole else whole ++ 46 :: part

def Ends (tail : Bytes) : Prop := ∀ c ∈ tail.head?, c = 101

theorem digits_end {tail : Bytes} (ends : Ends tail) (d : Digits) : digits 10 d tail = (d, tail) := by
  cases tail with
  | nil => rfl
  | cons c rest =>
    have mark : c = 101 := ends c rfl
    subst mark
    rfl

theorem digits_spelled {whole part tail : Bytes} (all : AllDigits whole) (more : AllDigits part)
    (some : whole ≠ []) (ends : Ends tail) :
    digits 10 {} (spelled whole part ++ tail) =
      ({ value := numeral (whole ++ part), places := part.length, dot := !part.isEmpty, any := true },
        tail) := by
  have any : (!whole.isEmpty) = true := by simpa using some
  unfold spelled
  split
  · rename_i empty
    rw [List.isEmpty_iff] at empty
    subst empty
    rw [digits_run all, digits_end ends]
    simp [any]
  · rename_i nonempty
    rw [List.append_assoc, digits_run all, List.cons_append, digits]
    simp only [Bool.false_eq_true, if_false]
    rw [if_neg (by decide), if_pos (by decide), digits_run more, digits_end ends]
    simp [any, nonempty, numeral_append]

theorem two_le_ten {k l : Int} (nonneg : 0 ≤ k) (short : l ≤ 3 * k) :
    (2 : ℚ) ^ l ≤ 10 ^ k := by
  calc (2 : ℚ) ^ l ≤ 2 ^ (3 * k) := zpow_le_zpow_right₀ (by norm_num) short
    _ = 8 ^ k := by rw [zpow_mul]; norm_num
    _ ≤ 10 ^ k := zpow_le_zpow_left₀ nonneg (by norm_num) (by norm_num)

theorem rounds_lt {m : Nat} {e : Int} {x : ℚ} (fits : Fits m e) (rounds : Rounds m e x) :
    x < 10 ^ (401 : Int) := by
  have small : (m : ℚ) ≤ 2 ^ 53 := by exact_mod_cast fits.small.le
  have reach := rounds.upper
  have unit := two_zpow_pos e
  calc x ≤ ((2 : ℚ) ^ 53 + 1) * 2 ^ e := by nlinarith
    _ ≤ 2 ^ (54 : Int) * 2 ^ e := by gcongr; norm_num
    _ = 2 ^ (54 + e) := by rw [zpow_add₀ (by norm_num)]
    _ < 2 ^ (1203 : Int) := zpow_lt_zpow_right₀ (by norm_num) (by have := fits.most; omega)
    _ ≤ 10 ^ (401 : Int) := two_le_ten (by norm_num) (by norm_num)

theorem lt_rounds {m : Nat} {e : Int} {x : ℚ} (positive : m ≠ 0) (fits : Fits m e)
    (rounds : Rounds m e x) : (10 : ℚ) ^ (-401 : Int) < x := by
  have gap2 := gap_le_two m e
  have one : (1 : ℚ) ≤ m := by exact_mod_cast Nat.one_le_iff_ne_zero.mpr positive
  have reach := rounds.lower
  have unit := two_zpow_pos e
  have wide : (2 : ℚ) ^ (1203 : Int) ≤ 10 ^ (401 : Int) := two_le_ten (by norm_num) (by norm_num)
  calc (10 : ℚ) ^ (-401 : Int) ≤ 2 ^ (-1203 : Int) := by
        rw [zpow_neg, zpow_neg]
        exact inv_anti₀ (two_zpow_pos 1203) wide
    _ < 2 ^ (-1 + e) := zpow_lt_zpow_right₀ (by norm_num) (by have := fits.least; omega)
    _ = 1 / 2 * 2 ^ e := by rw [zpow_add₀ (by norm_num)]; norm_num
    _ ≤ x := by nlinarith

/-- Decimal digits that round to a double are read as it. -/
theorem view_ofDecimal {value m : Nat} {e x : Int} (positive : m ≠ 0) (fits : Fits m e)
    (rounds : Rounds m e (value * 10 ^ x)) : view (ofDecimal value x) = .finite false m e := by
  have notHuge := rounds_lt fits rounds
  have notTiny := lt_rounds positive fits rounds
  have tens := ten_zpow_pos x
  have some : value ≠ 0 := by
    rintro rfl
    rw [Nat.cast_zero, zero_mul] at notTiny
    exact absurd (ten_zpow_pos (-401)) (not_lt.mpr notTiny.le)
  obtain ⟨least, most⟩ := log2_bounds some
  have first : ¬ ((Nat.log2 value : Int) * 3 / 10 + x > 400) := by
    intro huge
    have digits : (10 : ℚ) ^ ((Nat.log2 value : Int) * 3 / 10) ≤ 2 ^ (Nat.log2 value : Int) :=
      ten_le_two (by omega)
    have reach : (10 : ℚ) ^ (401 : Int) ≤ 10 ^ ((Nat.log2 value : Int) * 3 / 10) * 10 ^ x := by
      rw [← zpow_add₀ (by norm_num)]
      exact zpow_le_zpow_right₀ (by norm_num) (by omega)
    nlinarith
  have second : ¬ ((Nat.log2 value : Int) / 3 + 1 + x < -400) := by
    intro tiny
    have digits : (2 : ℚ) ^ ((Nat.log2 value : Int) + 1) ≤ 10 ^ ((Nat.log2 value : Int) / 3 + 1) :=
      two_le_ten (by omega) (by omega)
    have reach : (10 : ℚ) ^ ((Nat.log2 value : Int) / 3 + 1) * 10 ^ x ≤ 10 ^ (-401 : Int) := by
      rw [← zpow_add₀ (by norm_num)]
      exact zpow_le_zpow_right₀ (by norm_num) (by omega)
    nlinarith
  unfold ofDecimal
  rw [if_neg (by simpa using some), if_neg first, if_neg second]
  have den : pow10 (-x).toNat ≠ 0 := (Nat.pow_pos (by decide)).ne'
  have same : ((value * pow10 x.toNat : Nat) : ℚ) / (pow10 (-x).toNat : Nat) = value * 10 ^ x := by
    have split : (10 : ℚ) ^ x = (10 ^ x.toNat : Nat) / (10 ^ (-x).toNat : Nat) :=
      zpow_split (by norm_num) x
    rw [split, mul_div_assoc', ← Nat.cast_mul]
    rfl
  exact view_nearest den positive fits (same ▸ rounds)

theorem finite_ne_infinity {v : Float} {negative : Bool} {m : Nat} {e : Int}
    (finite : view v = .finite negative m e) : (v == infinity) = false := by
  show (v.toModel.unpack.compare infinity.toModel.unpack == some .eq) = false
  rw [unpack_eq_view, finite]
  have top : infinity.toModel.unpack = .infinity .positive := unpack_eq_view infinity
  rw [top]
  show ((unpacked negative m e).compare _ == _) = false
  unfold unpacked
  split <;> rfl

theorem lowerByte_digit {c : UInt8} (digit : isDigit c = true) : Bytes.lowerByte c = c := by
  unfold Bytes.lowerByte
  rw [if_neg]
  intro capital
  simp only [Bool.and_eq_true, decide_eq_true_eq, UInt8.le_iff_toNat_le] at capital
  exact absurd (capital.1.trans (isDigit_bounds digit).2) (by decide)

theorem digit_no_word {c : UInt8} (digit : isDigit c = true) (more : Bytes) :
    ((c :: more) == ("nan" : Bytes)) = false ∧ ((c :: more) == ("inf" : Bytes)) = false ∧
      ((c :: more) == ("infinity" : Bytes)) = false := by
  have other : ∀ (x : UInt8) (word : Bytes), 57 < x.toNat → ((c :: more) == x :: word) = false := by
    intro x word far
    rw [beq_eq_false_iff_ne]
    rintro ⟨⟩
    exact absurd (isDigit_bounds digit).2 (by omega)
  exact ⟨other 110 [97, 110] (by decide), other 105 [110, 102] (by decide),
    other 105 [110, 102, 105, 110, 105, 116, 121] (by decide)⟩

theorem double_of_digit {c : UInt8} (digit : isDigit c = true) (rest : Bytes) :
    double (c :: rest) = numeric (c :: rest) ∧ sign (c :: rest) = (false, c :: rest) := by
  obtain ⟨low, high⟩ := isDigit_bounds digit
  have unsigned : ∀ more, sign (c :: more) = (false, c :: more) := by
    intro more
    unfold sign
    split
    · rename_i h; cases h; exact absurd low (by decide)
    · rename_i h; cases h; exact absurd low (by decide)
    · rfl
  have word : special? (c :: rest) = none := by
    obtain ⟨nan, inf, infinity⟩ := digit_no_word digit (rest.map Bytes.lowerByte)
    unfold special?
    simp only [List.map_cons, lowerByte_digit digit, unsigned]
    rw [nan, inf, infinity]
    rfl
  exact ⟨by rw [double, word], unsigned rest⟩

structure Scaled (tail : Bytes) (x : Int) : Prop where
  ends : Ends tail
  reads : exponent? 101 false tail = some (x, false)

theorem scaled_nil : Scaled [] 0 := ⟨nofun, rfl⟩

theorem second_decimal {c : UInt8} {whole part tail : Bytes} (all : AllDigits whole)
    (ends : Ends tail) : ∀ d ∈ (spelled (c :: whole) part ++ tail).tail.head?, d ∈ [46, 101] ∨
      isDigit d = true := by
  intro d found
  cases whole with
  | cons w whole =>
    have same : d = w := by
      unfold spelled at found
      split at found <;> simpa using found.symm
    exact .inr (same ▸ all w (List.mem_cons_self ..))
  | nil =>
    cases part with
    | nil =>
      have same : d = 101 := ends d found
      subst same
      exact .inl (by decide)
    | cons p part =>
      have same : d = 46 := by simpa [spelled] using found.symm
      subst same
      exact .inl (by decide)

theorem numeric_spelled {whole part tail : Bytes} {x : Int} (all : AllDigits whole)
    (more : AllDigits part) (some : whole ≠ []) (scaled : Scaled tail x) :
    double (spelled whole part ++ tail) =
      finish false (ofDecimal (Decimal.numeral (whole ++ part)) (x - part.length)) := by
  cases whole with
  | nil => exact absurd rfl some
  | cons c whole =>
    have second := @second_decimal c whole part tail
      (fun x hx => all x (List.mem_cons_of_mem _ hx)) scaled.ends
    have read := digits_spelled all more some scaled.ends
    obtain ⟨rest, lead⟩ : ∃ rest, spelled (c :: whole) part ++ tail = c :: rest := by
      unfold spelled
      split <;> exact ⟨_, rfl⟩
    rw [lead] at second read ⊢
    obtain ⟨number, unsigned⟩ := double_of_digit (all c (List.mem_cons_self ..)) rest
    have decimal : marked (c :: rest) = false := by
      unfold marked
      split
      · rename_i d _ h
        cases h
        rcases second d rfl with mark | digit
        · simp only [List.mem_cons, List.not_mem_nil, or_false] at mark
          rcases mark with rfl | rfl <;> rfl
        · rw [lowerByte_digit digit, beq_eq_false_iff_ne]
          rintro rfl
          cases digit
      · rfl
    rw [number, numeric]
    simp only [unsigned, decimal, Bool.false_eq_true, if_false, read, scaled.reads]
    rfl

theorem ofDecimal_ne_nan (value : Nat) (x : Int) : view (ofDecimal value x) ≠ .nan := by
  have zero : view 0 ≠ .nan := nofun
  have infinite : view infinity ≠ .nan := nofun
  unfold ofDecimal
  split
  · exact zero
  split
  · exact infinite
  split
  · exact zero
  · exact nearest_ne_nan _ _

theorem finish_value (v : Float) : (finish false v).value = v := by
  unfold finish
  dsimp only
  split <;> rfl

theorem double_of_digits {w : Bytes} (all : AllDigits w) (some : w ≠ []) :
    (double w).value = ofDecimal (Decimal.numeral w) 0 := by
  have read := numeric_spelled all (List.forall_mem_nil _) some scaled_nil
  have text : spelled w [] ++ [] = w := List.append_nil _
  rw [text, List.append_nil] at read
  rw [read, finish_value]
  rfl

theorem double_ne_nan {whole part : Bytes} (all : AllDigits whole) (more : AllDigits part)
    (some : whole ≠ []) : view (double (spelled whole part)).value ≠ .nan := by
  have read := numeric_spelled all more some scaled_nil
  rw [List.append_nil] at read
  rw [read, finish_value]
  exact ofDecimal_ne_nan _ _

/-- A decimal number that rounds to a double is read as it. -/
theorem double_rounds {whole part tail : Bytes} {x e : Int} {m : Nat} {v : Float}
    (all : AllDigits whole) (more : AllDigits part) (some : whole ≠ []) (scaled : Scaled tail x)
    (finite : view v = .finite false m e) (positive : m ≠ 0)
    (rounds : Rounds m e (Decimal.numeral (whole ++ part) * 10 ^ (x - part.length))) :
    double (spelled whole part ++ tail) = ⟨v, none⟩ := by
  have same : ofDecimal (Decimal.numeral (whole ++ part)) (x - part.length) = v :=
    view_injective ((view_ofDecimal positive (fits_of_view finite) rounds).trans finite.symm)
  rw [numeric_spelled all more some scaled, same, finish, finite_ne_infinity finite]
  rfl

theorem allDigits_zeros (n : Nat) : AllDigits (zeros n) := by
  intro c found
  rw [List.eq_of_mem_replicate found]
  rfl

theorem AllDigits.append {as bs : Bytes} (left : AllDigits as) (right : AllDigits bs) :
    AllDigits (as ++ bs) := by
  intro c found
  rcases List.mem_append.mp found with h | h
  · exact left c h
  · exact right c h

theorem AllDigits.take {ds : Bytes} (all : AllDigits ds) (n : Nat) : AllDigits (ds.take n) :=
  fun c found => all c (List.mem_of_mem_take found)

theorem AllDigits.drop {ds : Bytes} (all : AllDigits ds) (n : Nat) : AllDigits (ds.drop n) :=
  fun c found => all c (List.mem_of_mem_drop found)

/-- Set out around the point, digits keep their value. -/
theorem positional_spelled (d : Decimal) (all : AllDigits d.digits) (some : d.digits ≠ []) :
    ∃ whole part, d.positional = spelled whole part ∧ AllDigits whole ∧ AllDigits part ∧
      whole ≠ [] ∧ (Decimal.numeral (whole ++ part) * 10 ^ (0 - (part.length : Int)) : ℚ) = d.value := by
  have filled : d.digits.isEmpty = false := by simpa using some
  unfold positional value
  by_cases low : d.point ≤ 0
  · refine ⟨[48], zeros (-d.point).toNat ++ d.digits, ?_, allDigits_zeros 1,
      (allDigits_zeros _).append all, by simp, ?_⟩
    · rw [if_pos low, if_pos low, filled]
      rfl
    · have lead : Decimal.numeral ([48] ++ (zeros (-d.point).toNat ++ d.digits)) =
          Decimal.numeral d.digits := by
        have zero : Decimal.numeral [48] = 0 := rfl
        rw [numeral_append, numeral_append, numeral_zeros, zero]
        omega
      have count : (0 : Int) - (zeros (-d.point).toNat ++ d.digits).length =
          d.point - d.digits.length := by
        simp only [zeros, List.length_append, List.length_replicate]
        omega
      rw [lead, count]
  · refine ⟨d.digits.take d.point.toNat ++ zeros (d.point.toNat - d.digits.length),
      d.digits.drop d.point.toNat, ?_, (all.take _).append (allDigits_zeros _), all.drop _, ?_, ?_⟩
    · rw [if_neg low, if_neg low]
      rfl
    · intro empty
      have short := congrArg List.length empty
      have long : 0 < d.digits.length := List.length_pos_iff.mpr some
      simp only [zeros, List.length_append, List.length_take, List.length_replicate,
        List.length_nil] at short
      omega
    · by_cases inside : d.point.toNat ≤ d.digits.length
      · have none : zeros (d.point.toNat - d.digits.length) = [] := by
          rw [Nat.sub_eq_zero_of_le inside]
          rfl
        have count : (0 : Int) - (d.digits.drop d.point.toNat).length =
            d.point - d.digits.length := by
          rw [List.length_drop]
          omega
        rw [none, List.append_nil, List.take_append_drop, count]
      · have past : d.digits.length ≤ d.point.toNat := by omega
        have count : d.point - d.digits.length = (d.point.toNat - d.digits.length : Nat) := by omega
        rw [List.take_of_length_le past, List.drop_eq_nil_of_le past, List.append_nil,
          numeral_append, numeral_zeros, count]
        simp [zeros]

theorem numeral_lt {ds : Bytes} (all : AllDigits ds) : Decimal.numeral ds < 10 ^ ds.length := by
  induction ds with
  | nil => decide
  | cons c ds ih =>
    have less := ih (fun x hx => all x (List.mem_cons_of_mem _ hx))
    obtain ⟨low, high⟩ := isDigit_bounds (all c (List.mem_cons_self ..))
    rw [numeral_cons, List.length_cons, Nat.pow_succ]
    have top : (c.toNat - 48) * 10 ^ ds.length ≤ 9 * 10 ^ ds.length :=
      Nat.mul_le_mul_right _ (by omega)
    omega

theorem exponentDigits_run {ds : Bytes} (all : AllDigits ds) (acc : Nat)
    (small : acc * 10 ^ ds.length + Decimal.numeral ds < 100000) :
    exponentDigits acc false ds = (acc * 10 ^ ds.length + Decimal.numeral ds, false, []) := by
  induction ds generalizing acc with
  | nil => simp [exponentDigits, Decimal.numeral]
  | cons c ds ih =>
    have digit := all c (List.mem_cons_self ..)
    obtain ⟨low, high⟩ := isDigit_bounds digit
    have underscore : (c == 95) = false := by
      rw [beq_eq_false_iff_ne]; rintro rfl; simp at high
    have grown : acc * 10 ^ (c :: ds).length + Decimal.numeral (c :: ds) =
        (acc * 10 + (c.toNat - 48)) * 10 ^ ds.length + Decimal.numeral ds := by
      rw [numeral_cons, List.length_cons]
      ring
    rw [grown] at small ⊢
    have one : 1 ≤ 10 ^ ds.length := Nat.one_le_pow _ _ (by decide)
    have next : acc < 10000 := by
      have : acc * 10 + (c.toNat - 48) ≤ (acc * 10 + (c.toNat - 48)) * 10 ^ ds.length :=
        Nat.le_mul_of_pos_right _ one
      omega
    rw [exponentDigits, underscore, digit]
    simp only [Bool.false_eq_true, if_false, if_true, if_pos next]
    exact ih (fun x hx => all x (List.mem_cons_of_mem _ hx)) _ small

theorem scaled_exponent {e : Int} (small : e.natAbs < 100000) (n : Nat) :
    Scaled (101 :: (if e < 0 then 45 else 43) :: (zeros n ++ Bytes.ofNat e.natAbs)) e := by
  have all : AllDigits (zeros n ++ Bytes.ofNat e.natAbs) :=
    (allDigits_zeros n).append (fun _ => isDigit_of_mem_ofNat)
  have number : 0 * 10 ^ (zeros n ++ Bytes.ofNat e.natAbs).length +
      Decimal.numeral (zeros n ++ Bytes.ofNat e.natAbs) = e.natAbs := by
    rw [numeral_append, numeral_zeros, numeral_ofNat]
    omega
  have run := exponentDigits_run all 0 (by rw [number]; exact small)
  rw [number] at run
  have some : zeros n ++ Bytes.ofNat e.natAbs ≠ [] := by
    intro empty
    have long : 0 < (Bytes.ofNat e.natAbs).length := by
      rw [Bytes.ofNat, List.length_map]
      exact Nat.length_toDigits_pos
    have none := congrArg List.length empty
    rw [List.length_append, List.length_nil] at none
    omega
  generalize zeros n ++ Bytes.ofNat e.natAbs = ds at all run some
  cases ds with
  | nil => exact absurd rfl some
  | cons d ds =>
    have digit := all d (List.mem_cons_self ..)
    refine ⟨fun c found => by simpa using found.symm, ?_⟩
    have mark : (Bytes.lowerByte 101 == 101) = true := by decide
    rw [exponent?, mark]
    by_cases negative : e < 0
    · simp only [negative, if_true, sign, digit, run, Bool.not_true, Bool.false_eq_true, if_false]
      congr 2
      omega
    · simp only [negative, if_true, sign, digit, run, Bool.not_true, Bool.false_eq_true, if_false]
      congr 2
      omega

theorem shortest_filled {m : Nat} {e : Int} (positive : m ≠ 0) (fits : Fits m e) :
    (shortest m e).digits ≠ [] := by
  intro empty
  have range := lt_rounds positive fits (shortest_rounds positive fits)
  have none : (shortest m e).value = 0 := by
    rw [value, empty]
    exact zero_mul _
  rw [none] at range
  exact absurd (ten_zpow_pos (-401)) (not_lt.mpr range.le)

theorem exponent_between {d : Decimal} (all : AllDigits d.digits) (some : d.digits ≠ [])
    (leads : 10 ^ (d.digits.length - 1) ≤ Decimal.numeral d.digits) :
    (10 : ℚ) ^ d.exponent ≤ d.value ∧ d.value < 10 ^ (d.exponent + 1) := by
  have below := numeral_lt all
  have long : 0 < d.digits.length := List.length_pos_iff.mpr some
  have filled : d.digits.isEmpty = false := by simpa using some
  have exponent : d.exponent = d.point - 1 := by
    rw [Decimal.exponent, filled]
    rfl
  have tens := ten_zpow_pos (d.point - d.digits.length)
  rw [exponent, value]
  constructor
  · calc (10 : ℚ) ^ (d.point - 1)
          = (10 ^ (d.digits.length - 1) : Nat) * 10 ^ (d.point - d.digits.length) := by
          rw [Nat.cast_pow, ← zpow_natCast, Nat.cast_ofNat, ← zpow_add₀ (by norm_num)]
          congr 1
          omega
      _ ≤ Decimal.numeral d.digits * 10 ^ (d.point - d.digits.length) := by
          gcongr
  · calc (Decimal.numeral d.digits : ℚ) * 10 ^ (d.point - d.digits.length)
          < (10 ^ d.digits.length : Nat) * 10 ^ (d.point - d.digits.length) := by
          gcongr
      _ = 10 ^ (d.point - 1 + 1) := by
          rw [Nat.cast_pow, ← zpow_natCast, Nat.cast_ofNat, ← zpow_add₀ (by norm_num)]
          congr 1
          omega

theorem shortest_between {m : Nat} {e : Int} (positive : m ≠ 0) (fits : Fits m e) :
    (10 : ℚ) ^ (shortest m e).exponent ≤ (shortest m e).value ∧
      (shortest m e).value < 10 ^ ((shortest m e).exponent + 1) :=
  have some := shortest_filled positive fits
  exponent_between isDigit_of_mem_shortest some (shortest_leads some)

theorem shortest_exponent {m : Nat} {e : Int} (positive : m ≠ 0) (fits : Fits m e) :
    (shortest m e).exponent.natAbs < 100000 := by
  have rounds := shortest_rounds positive fits
  obtain ⟨low, high⟩ := shortest_between positive fits
  have most := (zpow_lt_zpow_iff_right₀ (by norm_num : (1 : ℚ) < 10)).mp
    (low.trans_lt (rounds_lt fits rounds))
  have least := (zpow_lt_zpow_iff_right₀ (by norm_num : (1 : ℚ) < 10)).mp
    ((lt_rounds positive fits rounds).trans high)
  omega

theorem scientific_spelled (d : Decimal) (some : d.digits ≠ []) (w : Nat) :
    ∃ c part, d.digits = c :: part ∧ d.scientific w = spelled [c] part ++
        101 :: (if d.exponent < 0 then 45 else 43) ::
          (zeros (w - (Bytes.ofNat d.exponent.natAbs).length) ++ Bytes.ofNat d.exponent.natAbs) ∧
      (Decimal.numeral ([c] ++ part) * 10 ^ (d.exponent - part.length) : ℚ) = d.value := by
  obtain ⟨digits, point⟩ := d
  cases digits with
  | nil => exact absurd rfl some
  | cons c part =>
    refine ⟨c, part, rfl, ?_, ?_⟩
    · have lead : mantissa ⟨c :: part, point⟩ = spelled [c] part := by
        cases part <;> rfl
      rw [scientific, lead]
      simp only [List.append_assoc, List.cons_append]
    · have count : (⟨c :: part, point⟩ : Decimal).exponent - part.length =
          point - (c :: part).length := by
        show point - 1 - part.length = point - (part.length + 1 : Nat)
        omega
      rw [count]
      rfl

theorem zero_of_view {v : Float} {e : Int} (finite : view v = .finite false 0 e) : v = 0 := by
  have least : e = -1074 := by
    rcases (fits_of_view finite).full with full | least
    · omega
    · exact least
  exact view_injective (finite.trans (by rw [least]; rfl))

theorem double_positional {v : Float} {m : Nat} {e : Int} (finite : view v = .finite false m e) :
    double (shortest m e).positional = ⟨v, none⟩ := by
  by_cases positive : m = 0
  · subst positive
    have text : (shortest 0 e).positional = spelled [48] [] ++ [] := rfl
    have digit : AllDigits [48] := allDigits_zeros 1
    rw [zero_of_view finite, text, numeric_spelled digit (List.forall_mem_nil _)
      (List.cons_ne_nil _ _) scaled_nil]
    rfl
  · have fits := fits_of_view finite
    have rounds := shortest_rounds positive fits
    obtain ⟨whole, part, text, all, more, filled, same⟩ :=
      positional_spelled (shortest m e) isDigit_of_mem_shortest (shortest_filled positive fits)
    rw [text, ← List.append_nil (spelled whole part)]
    exact double_rounds all more filled scaled_nil finite positive (same ▸ rounds)

theorem double_scientific {v : Float} {m : Nat} {e : Int} (finite : view v = .finite false m e)
    (w : Nat) : double ((shortest m e).scientific w) = ⟨v, none⟩ := by
  by_cases positive : m = 0
  · subst positive
    have text : (shortest 0 e).scientific w = spelled [48] [] ++
        101 :: (if (0 : Int) < 0 then 45 else 43) ::
          (zeros (w - (Bytes.ofNat 0).length) ++ Bytes.ofNat (Int.natAbs 0)) := rfl
    have digit : AllDigits [48] := allDigits_zeros 1
    rw [zero_of_view finite, text, numeric_spelled digit (List.forall_mem_nil _)
      (List.cons_ne_nil _ _) (scaled_exponent (by decide) _)]
    rfl
  · have fits := fits_of_view finite
    obtain ⟨c, part, digits, text, same⟩ :=
      scientific_spelled (shortest m e) (shortest_filled positive fits) w
    have all : AllDigits (c :: part) := digits ▸ isDigit_of_mem_shortest
    have first : AllDigits [c] := all.take 1
    have more : AllDigits part := all.drop 1
    rw [text]
    exact double_rounds first more (List.cons_ne_nil _ _)
      (scaled_exponent (shortest_exponent positive fits) _) finite positive
      (same ▸ shortest_rounds positive fits)

theorem double_write {v : Float} {m : Nat} {e : Int} (finite : view v = .finite false m e)
    (l : Layout) : double (l.write (shortest m e)) = ⟨v, none⟩ := by
  unfold Decimal.Layout.write
  split
  · exact double_scientific finite l.width
  · exact double_positional finite

end DistanceField.Read
