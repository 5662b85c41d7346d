import DistanceField.Proofs.Number.Bits

/-! The double nearest to a fraction is the one whose rounding interval holds it. -/
namespace DistanceField.Double

theorem roundDiv_eq {n d k : Nat} (positive : 0 < d) (lower : 2 * (k * d) ≤ 2 * n + d)
    (upper : 2 * n ≤ 2 * (k * d) + d)
    (tie : k % 2 = 1 → 2 * (k * d) < 2 * n + d ∧ 2 * n < 2 * (k * d) + d) :
    roundDiv n d = k := by
  have split : n = n / d * d + n % d := (Nat.div_add_mod' n d).symm
  have rest : n % d < d := Nat.mod_lt n positive
  unfold roundDiv
  generalize n / d = q at *
  generalize n % d = r at *
  have least : q ≤ k := by
    by_contra h
    have : (k + 1) * d ≤ q * d := Nat.mul_le_mul_right d (by omega)
    rw [Nat.add_mul] at this
    omega
  have most : k ≤ q + 1 := by
    by_contra h
    have : (q + 2) * d ≤ k * d := Nat.mul_le_mul_right d (by omega)
    rw [Nat.add_mul] at this
    omega
  obtain rfl | rfl : k = q ∨ k = q + 1 := by omega
  · rw [if_neg]
    simp only [Bool.or_eq_true, decide_eq_true_eq, Bool.and_eq_true, beq_iff_eq]
    omega
  · rw [if_pos]
    rw [Nat.add_mul] at *
    simp only [Bool.or_eq_true, decide_eq_true_eq, Bool.and_eq_true, beq_iff_eq]
    omega

theorem zpow_split {b : Nat} (positive : 0 < b) (e : Int) :
    (b : ℚ) ^ e = (b ^ e.toNat : Nat) / (b ^ (-e).toNat : Nat) := by
  have hb : (b : ℚ) ≠ 0 := by positivity
  rw [Nat.cast_pow, Nat.cast_pow, ← zpow_natCast, ← zpow_natCast, ← zpow_sub₀ hb]
  congr 1
  omega

theorem two_zpow_split (e : Int) :
    (2 : ℚ) ^ e = (2 ^ e.toNat : Nat) / (2 ^ (-e).toNat : Nat) := zpow_split (by norm_num) e

theorem ten_zpow_split (q : Int) :
    (10 : ℚ) ^ q = (10 ^ q.toNat : Nat) / (10 ^ (-q).toNat : Nat) := zpow_split (by norm_num) q

theorem two_zpow_pos (e : Int) : (0 : ℚ) < 2 ^ e := zpow_pos (by norm_num) e

theorem log2_bounds {n : Nat} (positive : n ≠ 0) :
    (2 : ℚ) ^ (n.log2 : Int) ≤ n ∧ (n : ℚ) < 2 ^ ((n.log2 : Int) + 1) := by
  constructor
  · rw [zpow_natCast]
    exact_mod_cast Nat.log2_self_le positive
  · have h : ((n.log2 : Int) + 1) = ((n.log2 + 1 : Nat) : Int) := by push_cast; ring
    rw [h, zpow_natCast]
    exact_mod_cast Nat.lt_log2_self

theorem scaled_iff {num den : Nat} (hd : den ≠ 0) (g : Int) :
    (if g ≥ 0 then num ≥ den * pow2 (g.toNat + 52) else num * pow2 (-g).toNat ≥ den * pow2 52) ↔
      (2 : ℚ) ^ (g + 52) ≤ num / den := by
  have hd' : (0 : ℚ) < den := by positivity
  rw [le_div_iff₀ hd']
  split
  · rename_i nonneg
    have h : g + 52 = ((g.toNat + 52 : Nat) : Int) := by omega
    rw [h, zpow_natCast, mul_comm]
    unfold pow2
    norm_cast
  · rename_i negative
    have h : g + 52 = ((52 : Nat) : Int) - ((-g).toNat : Int) := by omega
    rw [h, zpow_sub₀ (by norm_num), zpow_natCast, zpow_natCast, div_mul_eq_mul_div,
      div_le_iff₀ (by positivity), mul_comm _ (den : ℚ)]
    norm_cast

/-- The exponent leaves 53 binary digits, or is the least one. -/
theorem exponent_bounds {num den : Nat} (hn : num ≠ 0) (hd : den ≠ 0) :
    -1074 ≤ exponent num den ∧ (num / den : ℚ) < 2 ^ (exponent num den + 53) ∧
      (exponent num den = -1074 ∨ (2 : ℚ) ^ (exponent num den + 52) ≤ num / den) := by
  have hd' : (0 : ℚ) < den := by positivity
  obtain ⟨numLow, numHigh⟩ := log2_bounds hn
  obtain ⟨denLow, denHigh⟩ := log2_bounds hd
  have guess : ∃ g : Int, g = (Nat.log2 num : Int) - Nat.log2 den - 52 := ⟨_, rfl⟩
  obtain ⟨g, hg⟩ := guess
  have low : (2 : ℚ) ^ (g + 51) ≤ num / den := by
    rw [le_div_iff₀ hd']
    calc (2 : ℚ) ^ (g + 51) * den ≤ 2 ^ (g + 51) * 2 ^ ((den.log2 : Int) + 1) := by
          gcongr
      _ = 2 ^ (num.log2 : Int) := by rw [← zpow_add₀ (by norm_num)]; congr 1; omega
      _ ≤ num := numLow
  have high : (num / den : ℚ) < 2 ^ (g + 53) := by
    rw [div_lt_iff₀ hd']
    calc (num : ℚ) < 2 ^ ((num.log2 : Int) + 1) := numHigh
      _ = 2 ^ (g + 53) * 2 ^ (den.log2 : Int) := by rw [← zpow_add₀ (by norm_num)]; congr 1; omega
      _ ≤ 2 ^ (g + 53) * den := by gcongr
  have chosen : exponent num den =
      max (if (2 : ℚ) ^ (g + 52) ≤ num / den then g else g - 1) (-1074) := by
    simp only [exponent, ← hg, ← scaled_iff hd]
  rw [chosen]
  refine ⟨le_max_right _ _, ?_, ?_⟩
  · refine lt_of_lt_of_le ?_ (zpow_le_zpow_right₀ (by norm_num : (1 : ℚ) ≤ 2)
      (add_le_add_left (le_max_left _ _) 53))
    split
    · exact high
    · rename_i short
      have h : g - 1 + 53 = g + 52 := by omega
      rw [h]
      exact not_le.mp short
  · rcases max_cases (if (2 : ℚ) ^ (g + 52) ≤ num / den then g else g - 1) (-1074) with
      ⟨h, _⟩ | ⟨h, _⟩
    · right
      rw [h]
      split
      · assumption
      · have h : g - 1 + 52 = g + 51 := by omega
        rw [h]
        exact low
    · left
      exact h

theorem mantissa_eq {num den : Nat} (hd : den ≠ 0) (e : Int) {k : Nat}
    (lower : (2 * k - 1) * 2 ^ e ≤ 2 * (num / den : ℚ))
    (upper : 2 * (num / den : ℚ) ≤ (2 * k + 1) * 2 ^ e)
    (tie : k % 2 = 1 → (2 * k - 1) * 2 ^ e < 2 * (num / den : ℚ) ∧
      2 * (num / den : ℚ) < (2 * k + 1) * 2 ^ e) :
    (if e ≥ 0 then roundDiv num (den * pow2 e.toNat) else roundDiv (num * pow2 (-e).toNat) den)
      = k := by
  have hd' : (0 : ℚ) < den := by positivity
  have scale := two_zpow_split e
  have common : (if e ≥ 0 then roundDiv num (den * pow2 e.toNat)
      else roundDiv (num * pow2 (-e).toNat) den) =
      roundDiv (num * 2 ^ (-e).toNat) (den * 2 ^ e.toNat) := by
    split
    · rename_i h
      have : (-e).toNat = 0 := by omega
      rw [this, pow_zero, mul_one]
      rfl
    · rename_i h
      have : e.toNat = 0 := by omega
      rw [this, pow_zero, mul_one]
      rfl
  rw [common]
  have hD : 0 < den * 2 ^ e.toNat := by positivity
  have hD' : (0 : ℚ) < (den * 2 ^ e.toNat : Nat) := by exact_mod_cast hD
  have ratio : 2 * (num / den : ℚ) =
      2 * (num * 2 ^ (-e).toNat : Nat) / (den * 2 ^ e.toNat : Nat) * 2 ^ e := by
    rw [scale]
    push_cast
    field_simp
  have unit := two_zpow_pos e
  rw [ratio] at lower upper tie
  simp only [mul_le_mul_iff_left₀ unit, mul_lt_mul_iff_left₀ unit, le_div_iff₀ hD', lt_div_iff₀ hD',
    div_le_iff₀ hD', div_lt_iff₀ hD'] at lower upper tie
  generalize num * 2 ^ (-e).toNat = n at *
  generalize den * 2 ^ e.toNat = d at *
  apply roundDiv_eq hD
  · have h : (2 * (k * d : Nat) : ℚ) ≤ 2 * n + d := by push_cast; linarith
    exact_mod_cast h
  · have h : (2 * n : ℚ) ≤ 2 * (k * d : Nat) + d := by push_cast; linarith
    exact_mod_cast h
  · intro odd
    obtain ⟨strictLower, strictUpper⟩ := tie odd
    constructor
    · have h : (2 * (k * d : Nat) : ℚ) < 2 * n + d := by push_cast; linarith
      exact_mod_cast h
    · have h : (2 * n : ℚ) < 2 * (k * d : Nat) + d := by push_cast; linarith
      exact_mod_cast h

/-- How far below `m * 2 ^ e` a fraction may lie, in quarters of the unit: the doubles below a
power of two are twice as dense. -/
def gap (m : Nat) (e : Int) : Nat := if m == pow2 52 && e > -1074 then 1 else 2

/-- The fractions that are rounded to `m * 2 ^ e`; the ends belong to an even `m`. -/
structure Rounds (m : Nat) (e : Int) (x : ℚ) : Prop where
  lower : (4 * m - gap m e) * 2 ^ e ≤ 4 * x
  upper : 4 * x ≤ (4 * m + 2) * 2 ^ e
  inside : m % 2 = 1 → (4 * m - gap m e) * 2 ^ e < 4 * x ∧ 4 * x < (4 * m + 2) * 2 ^ e

theorem gap_le_two (m : Nat) (e : Int) : (gap m e : ℚ) ≤ 2 := by
  unfold gap
  split <;> norm_num

theorem view_ofParts {m : Nat} {e : Int} (fits : Fits m e) :
    view (ofParts m e) = .finite false m e := by
  have same : ofParts m e = Float.ofBits (encode false m e).toUInt64 := by
    obtain ⟨small, least, most, full⟩ := fits
    have differs : (m == pow2 53) = false := by
      rw [beq_eq_false_iff_ne]
      exact Nat.ne_of_lt small
    simp only [ofParts, differs, Bool.false_eq_true, if_false]
    rw [if_neg (by omega)]
    by_cases sub : m < 2 ^ 52
    · rw [encode_sub sub]
      exact (if_pos sub).trans (by simp [signBit])
    · rw [encode_full (by omega)]
      exact (if_neg sub).trans (by simp [signBit, pow2, Nat.add_comm])
  have bits : (encode false m e).toUInt64.toNat = encode false m e :=
    Nat.mod_eq_of_lt (encode_lt fits false)
  rw [same, view_ofBits, bits, fields_encode fits]

/-- Rounding up to one digit more is the next exponent. -/
theorem ofParts_carry (e : Int) : ofParts (2 ^ 53) e = ofParts (2 ^ 52) (e + 1) := by
  rfl

theorem two_zpow_add (e : Int) (k : Nat) : (2 : ℚ) ^ (e + k) = 2 ^ k * 2 ^ e := by
  rw [zpow_add₀ (by norm_num), zpow_natCast, mul_comm]

theorem two_zpow_le {a b : Int} (k : Nat) (order : a ≤ b + k) : (2 : ℚ) ^ a ≤ 2 ^ k * 2 ^ b := by
  rw [← two_zpow_add]
  exact zpow_le_zpow_right₀ (by norm_num) order

section Rounding

variable {m : Nat} {e low : Int} {x : ℚ}

theorem gap_power (above : -1074 < e) : gap (2 ^ 52) e = 1 := by
  unfold gap
  rw [if_pos]
  simp only [Bool.and_eq_true, decide_eq_true_eq]
  exact ⟨rfl, above⟩

theorem Rounds.pos (rounds : Rounds m e x) (positive : m ≠ 0) : 0 < x := by
  have narrow := gap_le_two m e
  have one : (1 : ℚ) ≤ m := by exact_mod_cast Nat.one_le_iff_ne_zero.mpr positive
  have least : 0 < (4 * m - gap m e) * (2 : ℚ) ^ e := mul_pos (by linarith) (two_zpow_pos e)
  linarith [rounds.lower]

theorem Rounds.lt_two_zpow (rounds : Rounds m e x) (fits : Fits m e) : x < 2 ^ (e + 53) := by
  have small : (m : ℚ) + 1 ≤ 2 ^ 53 := by exact_mod_cast fits.small
  have split : (2 : ℚ) ^ (e + 53) = 2 ^ 53 * 2 ^ e := two_zpow_add e 53
  have top : (4 * m + 2) * (2 : ℚ) ^ e < 4 * 2 ^ 53 * 2 ^ e :=
    mul_lt_mul_of_pos_right (by linarith) (two_zpow_pos e)
  linarith [rounds.upper]

/-- Only the lowest of the numbers with 53 digits is reached from the digits below it. -/
theorem Rounds.carries (rounds : Rounds m e x) (fits : Fits m e) (least : -1074 ≤ low)
    (below : low < e) (high : x < 2 ^ (low + 53)) : m = 2 ^ 52 ∧ e = low + 1 := by
  have unit := two_zpow_pos e
  have narrow := gap_le_two m e
  have full : 2 ^ 52 ≤ m := fits.full.resolve_right (by omega)
  have power : m = 2 ^ 52 := by
    by_contra other
    have more : (2 ^ 52 + 1 : ℚ) ≤ m := by exact_mod_cast (by omega : 2 ^ 52 + 1 ≤ m)
    have limit : (2 : ℚ) ^ (low + 53) ≤ 2 ^ 52 * 2 ^ e := two_zpow_le 52 (by omega)
    have reached : 4 * 2 ^ 52 * (2 : ℚ) ^ e ≤ (4 * m - gap m e) * 2 ^ e :=
      mul_le_mul_of_nonneg_right (by linarith) unit.le
    linarith [rounds.lower]
  subst power
  refine ⟨rfl, ?_⟩
  by_contra far
  have limit : (2 : ℚ) ^ (low + 53) ≤ 2 ^ 51 * 2 ^ e := two_zpow_le 51 (by omega)
  have lower := rounds.lower
  rw [gap_power (by omega)] at lower
  push_cast at lower
  linarith

end Rounding

theorem view_nearest {num den m : Nat} {e : Int} (hd : den ≠ 0) (positive : m ≠ 0)
    (fits : Fits m e) (rounds : Rounds m e (num / den)) :
    view (nearest num den) = .finite false m e := by
  have hn : num ≠ 0 := by
    rintro rfl
    simpa using rounds.pos positive
  obtain ⟨least, high, low⟩ := exponent_bounds hn hd
  have common : nearest num den =
      ofParts (if exponent num den ≥ 0 then roundDiv num (den * pow2 (exponent num den).toNat)
        else roundDiv (num * pow2 (-exponent num den).toNat) den) (exponent num den) := by
    unfold nearest
    rw [if_neg (by simp [hn, hd])]
  rw [common]
  generalize exponent num den = E at *
  have notAbove : E ≤ e := by
    by_contra above
    have reached := low.resolve_left (by have := fits.least; omega)
    have step : (2 : ℚ) ^ (e + 53) ≤ 2 ^ (E + 52) := zpow_le_zpow_right₀ (by norm_num) (by omega)
    exact absurd (rounds.lt_two_zpow fits) (not_lt.mpr (step.trans reached))
  rcases lt_or_eq_of_le notAbove with below | rfl
  · obtain ⟨rfl, rfl⟩ := rounds.carries fits least below high
    have lower := rounds.lower
    have double : (2 : ℚ) ^ (E + 1) = 2 ^ 1 * 2 ^ E := two_zpow_add E 1
    have wide : (2 : ℚ) ^ (E + 53) = 2 ^ 53 * 2 ^ E := two_zpow_add E 53
    rw [gap_power (by omega), double] at lower
    rw [wide] at high
    push_cast at lower
    rw [@mantissa_eq _ _ hd E (2 ^ 53) ?_ ?_ ?_, ofParts_carry, view_ofParts fits]
    · push_cast
      linarith
    · push_cast
      linarith [two_zpow_pos E]
    · intro odd
      exact absurd odd (by decide)
  · have unit := two_zpow_pos E
    have wide : (4 * m - 2) * (2 : ℚ) ^ E ≤ (4 * m - gap m E) * 2 ^ E :=
      mul_le_mul_of_nonneg_right (by linarith [gap_le_two m E]) unit.le
    rw [@mantissa_eq _ _ hd E m ?_ ?_ ?_, view_ofParts fits]
    · linarith [rounds.lower]
    · linarith [rounds.upper]
    · intro odd
      obtain ⟨strictLower, strictUpper⟩ := rounds.inside odd
      constructor <;> linarith

theorem fields_ne_nan {b : Nat} (small : b < 2047 * 2 ^ 52) : fields b ≠ .nan := by
  have field : b / 2 ^ 52 % 2048 ≠ 2047 := by omega
  unfold fields
  simp only [beq_iff_eq]
  rw [if_neg field]
  split <;> nofun

theorem ofBits_ne_nan {n : Nat} (small : n < 2047 * 2 ^ 52) :
    view (Float.ofBits n.toUInt64) ≠ .nan := by
  have less : n < 2 ^ 64 := by omega
  have bits : n.toUInt64.toNat = n := Nat.mod_eq_of_lt less
  rw [view_ofBits, bits]
  exact fields_ne_nan small

theorem ofParts_small_ne_nan {m : Nat} {e : Int} (less : m < 2 ^ 53) :
    view (ofParts m e) ≠ .nan := by
  have differs : (m == pow2 53) = false := by
    rw [beq_eq_false_iff_ne]
    exact Nat.ne_of_lt less
  simp only [ofParts, differs, Bool.false_eq_true, if_false]
  split
  · nofun
  · rename_i fit
    have range : (e + 1075).toNat ≤ 2046 := by omega
    split
    · rename_i sub
      have small : m < 2 ^ 52 := sub
      exact ofBits_ne_nan (by omega)
    · have unit : pow2 52 = 2 ^ 52 := rfl
      apply ofBits_ne_nan
      rw [unit]
      omega

theorem ofParts_ne_nan {m : Nat} {e : Int} (most : m ≤ 2 ^ 53) : view (ofParts m e) ≠ .nan := by
  rcases Nat.lt_or_eq_of_le most with less | rfl
  · exact ofParts_small_ne_nan less
  · rw [ofParts_carry]
    exact ofParts_small_ne_nan (by norm_num)

theorem roundDiv_le {n d k : Nat} (less : n < d * k) : roundDiv n d ≤ k := by
  have quotient : n / d < k := Nat.div_lt_of_lt_mul less
  unfold roundDiv
  dsimp only
  split <;> omega

theorem nearest_ne_nan (num den : Nat) : view (nearest num den) ≠ .nan := by
  unfold nearest
  split
  · nofun
  · rename_i some
    simp only [Bool.or_eq_true, beq_iff_eq, not_or] at some
    obtain ⟨hn, hd⟩ := some
    have below := (exponent_bounds hn hd).2.1
    have hd' : (0 : ℚ) < den := by positivity
    generalize exponent num den = e at *
    have scale : (2 : ℚ) ^ e = (2 ^ e.toNat : Nat) / (2 ^ (-e).toNat : Nat) :=
      zpow_split (by decide) _
    rw [div_lt_iff₀ hd', zpow_add₀ (by norm_num), scale] at below
    apply ofParts_ne_nan
    split
    · rename_i nonneg
      apply roundDiv_le
      have flat : (-e).toNat = 0 := by omega
      have whole : (num : ℚ) < ((den * 2 ^ e.toNat * 2 ^ 53 : Nat) : ℚ) := by
        rw [flat, pow_zero, Nat.cast_one, div_one] at below
        push_cast at below ⊢
        linarith
      exact_mod_cast whole
    · rename_i negative
      apply roundDiv_le
      have flat : e.toNat = 0 := by omega
      have whole : ((num * 2 ^ (-e).toNat : Nat) : ℚ) < ((den * 2 ^ 53 : Nat) : ℚ) := by
        have positive : (0 : ℚ) < (2 ^ (-e).toNat : Nat) := by positivity
        rw [flat, pow_zero, Nat.cast_one, div_mul_eq_mul_div, one_mul, div_mul_eq_mul_div,
          lt_div_iff₀ positive] at below
        push_cast at below ⊢
        linarith
      exact_mod_cast whole

end DistanceField.Double
