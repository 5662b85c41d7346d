import DistanceField.Number.Decimal
import DistanceField.Number.Read
import DistanceField.Proofs.Number.Nearest

/-! The shortest digits of a double lie in its rounding interval. -/
namespace DistanceField.Decimal

open Double

theorem cross_le {A B C D : Nat} (hB : 0 < B) (hD : 0 < D) (s t : Nat) :
    (s : ℚ) * (A / B) ≤ t * (C / D) ↔ s * A * D ≤ t * C * B := by
  have hB' : (0 : ℚ) < B := by exact_mod_cast hB
  have hD' : (0 : ℚ) < D := by exact_mod_cast hD
  rw [mul_div_assoc', mul_div_assoc', div_le_div_iff₀ hB' hD']
  norm_cast

theorem cross_lt {A B C D : Nat} (hB : 0 < B) (hD : 0 < D) (s t : Nat) :
    (s : ℚ) * (A / B) < t * (C / D) ↔ s * A * D < t * C * B := by
  rw [← not_le, ← not_le, cross_le hD hB]

/-- The bounds of a span are those of the rounding interval. -/
theorem accepts_iff {m : Nat} {e : Int} (positive : m ≠ 0) (k : Nat) (q : Int) :
    (span m e).accepts k (pow10 q.toNat) (pow10 (-q).toNat) = true ↔ Rounds m e (k * 10 ^ q) := by
  have two := two_zpow_split e
  have ten := ten_zpow_split q
  have hB : 0 < 2 ^ (-e).toNat := by positivity
  have hD : 0 < 10 ^ (-q).toNat := by positivity
  have least : ((4 * m : ℚ) - gap m e) = ((4 * m - gap m e : Nat) : ℚ) := by
    have h : gap m e ≤ 4 * m := by unfold gap; split <;> omega
    rw [Nat.cast_sub h]
    push_cast
    ring
  have most : ((4 * m : ℚ) + 2) = ((4 * m + 2 : Nat) : ℚ) := by push_cast; ring
  have point : 4 * ((k : ℚ) * 10 ^ q) = ((4 * k : Nat) : ℚ) * 10 ^ q := by push_cast; ring
  have order : 4 * k * 10 ^ q.toNat * 2 ^ (-e).toNat =
      k * 10 ^ q.toNat * (4 * 2 ^ (-e).toNat) := by ring
  have spelled : (span m e).accepts k (pow10 q.toNat) (pow10 (-q).toNat) = true ↔
      (if m % 2 = 0 then
        (4 * m - gap m e) * 2 ^ e.toNat * 10 ^ (-q).toNat ≤ k * 10 ^ q.toNat * (4 * 2 ^ (-e).toNat) ∧
          k * 10 ^ q.toNat * (4 * 2 ^ (-e).toNat) ≤ (4 * m + 2) * 2 ^ e.toNat * 10 ^ (-q).toNat
      else
        (4 * m - gap m e) * 2 ^ e.toNat * 10 ^ (-q).toNat < k * 10 ^ q.toNat * (4 * 2 ^ (-e).toNat) ∧
          k * 10 ^ q.toNat * (4 * 2 ^ (-e).toNat) < (4 * m + 2) * 2 ^ e.toNat * 10 ^ (-q).toNat) := by
    have spanned : span m e = ⟨4 * m * 2 ^ e.toNat, (4 * m - gap m e) * 2 ^ e.toNat,
        (4 * m + 2) * 2 ^ e.toNat, 4 * 2 ^ (-e).toNat, m % 2 == 0⟩ := rfl
    simp only [Span.accepts, spanned, beq_iff_eq]
    split <;> simp only [Bool.and_eq_true, decide_eq_true_eq] <;> rfl
  rw [spelled, ← order]
  simp only [← cross_le hB hD, ← cross_le hD hB, ← cross_lt hB hD, ← cross_lt hD hB, ← two, ← ten,
    ← least, ← most, ← point]
  split
  · rename_i even
    exact ⟨fun h => ⟨h.1, h.2, fun odd => absurd odd (by omega)⟩, fun h => ⟨h.lower, h.upper⟩⟩
  · rename_i odd
    exact ⟨fun h => ⟨h.1.le, h.2.le, fun _ => h⟩, fun h => h.inside (by omega)⟩

theorem ten_zpow_pos (q : Int) : (0 : ℚ) < 10 ^ q := zpow_pos (by norm_num) q

def worth (m : Nat) (e : Int) : ℚ := m * 2 ^ e

theorem below_iff (m : Nat) (e q : Int) :
    (span m e).num * pow10 (-q).toNat < (span m e).den * pow10 q.toNat ↔ worth m e < 10 ^ q := by
  have two := two_zpow_split e
  have ten := ten_zpow_split q
  have hB : 0 < 2 ^ (-e).toNat := by positivity
  have hD : 0 < 10 ^ (-q).toNat := by positivity
  have cross := @cross_lt (2 ^ e.toNat) (2 ^ (-e).toNat) (10 ^ q.toNat) (10 ^ (-q).toNat) hB hD m 1
  rw [worth, two, ten, ← one_mul ((10 ^ q.toNat : Nat) / (10 ^ (-q).toNat : Nat) : ℚ)]
  rw [Nat.cast_one] at cross
  rw [cross]
  show 4 * m * 2 ^ e.toNat * 10 ^ (-q).toNat < 4 * 2 ^ (-e).toNat * 10 ^ q.toNat ↔ _
  constructor <;> intro h <;> nlinarith

theorem magnitude_reached (m : Nat) (e : Int) (fuel : Nat) (p : Int)
    (near : (10 : ℚ) ^ (p - fuel - 1) ≤ worth m e) :
    (10 : ℚ) ^ ((span m e).magnitude fuel p - 1) ≤ worth m e := by
  induction fuel generalizing p with
  | zero => simpa [Span.magnitude] using near
  | succ fuel ih =>
    unfold Span.magnitude
    simp only
    split
    · apply ih
      have h : p - 1 - (fuel : Int) - 1 = p - ((fuel + 1 : Nat) : Int) - 1 := by push_cast; ring
      rw [h]
      exact near
    · rename_i reached
      rw [below_iff] at reached
      exact not_lt.mp reached

theorem ten_le_two {t : Int} {l : Nat} (h : 10 * t ≤ 3 * l) : (10 : ℚ) ^ t ≤ 2 ^ (l : Int) := by
  have tenth : ((10 : ℚ) ^ t) ^ 10 ≤ ((2 : ℚ) ^ (l : Int)) ^ 10 := by
    calc ((10 : ℚ) ^ t) ^ 10 = 10 ^ (10 * t) := by rw [← zpow_natCast, ← zpow_mul]; congr 1; ring
      _ ≤ 10 ^ (3 * (l : Int)) := zpow_le_zpow_right₀ (by norm_num) h
      _ = (1000 : ℚ) ^ l := by rw [zpow_mul, zpow_natCast]; norm_num
      _ ≤ (1024 : ℚ) ^ l := by gcongr; norm_num
      _ = ((2 : ℚ) ^ (l : Int)) ^ 10 := by rw [zpow_natCast, ← pow_mul, mul_comm, pow_mul]; norm_num
  exact le_of_pow_le_pow_left₀ (by norm_num) (zpow_pos (by norm_num) _).le tenth

theorem ten_le_half {t : Int} {l : Nat} (h : 93 * t ≤ -28 * (l : Int)) :
    (10 : ℚ) ^ t ≤ 2 ^ (-(l : Int)) := by
  have power : ((10 : ℚ) ^ t) ^ 93 ≤ ((2 : ℚ) ^ (-(l : Int))) ^ 93 := by
    calc ((10 : ℚ) ^ t) ^ 93 = 10 ^ (93 * t) := by rw [← zpow_natCast, ← zpow_mul]; congr 1; ring
      _ ≤ 10 ^ (-28 * (l : Int)) := zpow_le_zpow_right₀ (by norm_num) h
      _ = ((10 ^ 28 : ℚ) ^ l)⁻¹ := by
          rw [← pow_mul, neg_mul, zpow_neg]
          norm_cast
      _ ≤ ((2 ^ 93 : ℚ) ^ l)⁻¹ := by gcongr; norm_num
      _ = ((2 : ℚ) ^ (-(l : Int))) ^ 93 := by
          rw [zpow_neg, zpow_natCast, inv_pow, ← pow_mul, ← pow_mul, mul_comm]
  exact le_of_pow_le_pow_left₀ (by norm_num) (zpow_pos (by norm_num) _).le power

theorem worth_log2 {m : Nat} (positive : m ≠ 0) (e : Int) :
    (2 : ℚ) ^ ((m.log2 : Int) + e) ≤ worth m e := by
  have h := (log2_bounds positive).1
  rw [worth, zpow_add₀ (by norm_num)]
  have := two_zpow_pos e
  gcongr

theorem start_near {m : Nat} {e : Int} (positive : m ≠ 0) (fits : Fits m e) :
    (10 : ℚ) ^ (((Nat.log2 m + e + 1) * 30103 / 100000 + 2 : Int) - (8 : Nat) - 1) ≤ worth m e := by
  have upper := (Nat.log2_lt positive).mpr fits.small
  have least := fits.least
  have most := fits.most
  refine le_trans ?_ (worth_log2 positive e)
  rcases le_or_gt 0 ((m.log2 : Int) + e) with up | down
  · obtain ⟨l, hl⟩ := Int.eq_ofNat_of_zero_le up
    rw [hl]
    exact ten_le_two (by push_cast; omega)
  · obtain ⟨l, hl⟩ := Int.eq_ofNat_of_zero_le (by omega : 0 ≤ -((m.log2 : Int) + e))
    have h : (m.log2 : Int) + e = -(l : Int) := by omega
    rw [h]
    exact ten_le_half (by push_cast; omega)

theorem roundDiv_near {d : Nat} (positive : 0 < d) (n : Nat) :
    2 * (roundDiv n d * d) ≤ 2 * n + d ∧ 2 * n ≤ 2 * (roundDiv n d * d) + d := by
  have split : n = n / d * d + n % d := (Nat.div_add_mod' n d).symm
  have rest : n % d < d := Nat.mod_lt n positive
  unfold roundDiv
  generalize n / d = q at *
  generalize n % d = r at *
  simp only [Bool.or_eq_true, decide_eq_true_eq, Bool.and_eq_true, beq_iff_eq]
  split
  · rw [Nat.add_mul]
    omega
  · omega

theorem multiple_near (m : Nat) (e q : Int) :
    |(roundDiv ((span m e).num * pow10 (-q).toNat) ((span m e).den * pow10 q.toNat) : ℚ) * 10 ^ q -
      worth m e| ≤ 10 ^ q / 2 := by
  have two := two_zpow_split e
  have ten := ten_zpow_split q
  have hd : 0 < (span m e).den * pow10 q.toNat := by
    show 0 < 4 * 2 ^ (-e).toNat * 10 ^ q.toNat
    positivity
  have hd' : (0 : ℚ) < ((span m e).den * pow10 q.toNat : Nat) := by exact_mod_cast hd
  obtain ⟨low, high⟩ := roundDiv_near hd ((span m e).num * pow10 (-q).toNat)
  have ratio : worth m e = ((span m e).num * pow10 (-q).toNat : Nat) /
      ((span m e).den * pow10 q.toNat : Nat) * 10 ^ q := by
    show (m : ℚ) * 2 ^ e = (4 * m * 2 ^ e.toNat * 10 ^ (-q).toNat : Nat) /
      (4 * 2 ^ (-e).toNat * 10 ^ q.toNat : Nat) * 10 ^ q
    rw [two, ten]
    push_cast
    field_simp
  generalize (span m e).num * pow10 (-q).toNat = n at *
  generalize (span m e).den * pow10 q.toNat = d at *
  generalize roundDiv n d = k at *
  have low' : (2 * (k * d) : ℚ) ≤ 2 * n + d := by exact_mod_cast low
  have high' : (2 * n : ℚ) ≤ 2 * (k * d) + d := by exact_mod_cast high
  have quotient : (n / d : ℚ) * d = n := div_mul_cancel₀ _ hd'.ne'
  have unit := ten_zpow_pos q
  rw [ratio, ← sub_mul, abs_mul, abs_of_pos unit]
  have half : |(k : ℚ) - n / d| ≤ 1 / 2 := by
    rw [abs_le]
    constructor <;> nlinarith
  nlinarith

/-- Seventeen digits are always enough. -/
theorem pick_seventeen {m : Nat} {e p : Int} (positive : m ≠ 0) (fits : Fits m e)
    (reached : (10 : ℚ) ^ (p - 1) ≤ worth m e) :
    ((span m e).pick (pow10 (p - (17 : Nat)).toNat) (pow10 (-(p - (17 : Nat))).toNat)).isSome := by
  generalize hq : p - ((17 : Nat) : Int) = q
  have unit : (10 : ℚ) ^ q * 10 ^ 16 ≤ worth m e := by
    have h : p - 1 = q + (16 : Nat) := by omega
    rw [h, zpow_add₀ (by norm_num), zpow_natCast] at reached
    exact reached
  have near := multiple_near m e q
  generalize hk : roundDiv ((span m e).num * pow10 (-q).toNat) ((span m e).den * pow10 q.toNat) = k
    at near
  have margin : (2 * m : ℚ) < gap m e * 10 ^ 16 := by
    have h : 2 * m < gap m e * 10 ^ 16 := by
      have := fits.small
      unfold gap
      split
      · rename_i power
        simp only [Bool.and_eq_true, beq_iff_eq] at power
        rw [power.1]
        decide
      · omega
    exact_mod_cast h
  have two := two_zpow_pos e
  have gap2 := gap_le_two m e
  rw [abs_le] at near
  unfold worth at near unit
  have inside : Rounds m e (k * 10 ^ q) := by
    have strictLower : ((4 * m : ℚ) - gap m e) * 2 ^ e < 4 * (k * 10 ^ q) := by nlinarith
    have strictUpper : 4 * ((k : ℚ) * 10 ^ q) < (4 * m + 2) * 2 ^ e := by nlinarith
    exact ⟨strictLower.le, strictUpper.le, fun _ => ⟨strictLower, strictUpper⟩⟩
  have accepted := (accepts_iff positive k q).mpr inside
  unfold Span.pick
  simp only [hk, accepted, if_true]
  rfl

theorem pick_accepts {s : Span} {up down k : Nat} (h : s.pick up down = some k) :
    s.accepts k up down = true := by
  simp only [Span.pick] at h
  generalize (if roundDiv (s.num * down) (s.den * up) == s.num * down / (s.den * up) then
    s.num * down / (s.den * up) + 1 else s.num * down / (s.den * up)) = far at h
  split at h
  · cases h
    assumption
  · split at h
    · cases h
      assumption
    · cases h

theorem search_hit {s : Span} {p : Int} {fuel n j : Nat} (least : n ≤ j) (most : j < n + fuel)
    (hit : (s.pick (pow10 (p - j).toNat) (pow10 (-(p - j)).toNat)).isSome) :
    s.pick (pow10 (p - (s.search p fuel n).2).toNat) (pow10 (-(p - (s.search p fuel n).2)).toNat) =
      some (s.search p fuel n).1 := by
  induction fuel generalizing n with
  | zero => omega
  | succ fuel ih =>
    unfold Span.search
    simp only
    split
    · assumption
    · rename_i none
      apply ih _ (by omega)
      rcases Nat.lt_or_eq_of_le least with lt | rfl
      · exact lt
      · rw [none] at hit
        cases hit

def numeral (ds : Bytes) : Nat := ds.foldl (fun (n : Nat) c => 10 * n + (c.toNat - 48)) 0

theorem numeral_from (ds : Bytes) (a : Nat) :
    ds.foldl (fun (n : Nat) c => 10 * n + (c.toNat - 48)) a = a * 10 ^ ds.length + numeral ds := by
  induction ds generalizing a with
  | nil => simp [numeral]
  | cons c ds ih =>
    simp only [numeral, List.foldl_cons, List.length_cons]
    rw [ih, ih (10 * 0 + _)]
    ring

theorem numeral_append (as bs : Bytes) :
    numeral (as ++ bs) = numeral as * 10 ^ bs.length + numeral bs := by
  rw [numeral, List.foldl_append, numeral_from]
  rfl

theorem numeral_zeros (n : Nat) : numeral (zeros n) = 0 := by
  induction n with
  | zero => rfl
  | succ n ih =>
    have h : zeros (n + 1) = zeros n ++ [48] := by
      simp [zeros, List.replicate_succ']
    rw [h, numeral_append, ih]
    rfl

theorem digitChar_byte {n : Nat} (lt : n < 10) : (Bytes.byte (Nat.digitChar n)).toNat = n + 48 := by
  interval_cases n <;> rfl

theorem numeral_ofNat (n : Nat) : numeral (Bytes.ofNat n) = n := by
  induction n using Nat.strongRecOn with
  | ind n ih =>
    unfold Bytes.ofNat
    rw [Nat.toDigits_eq_if (by omega)]
    split
    · rename_i lt
      simp only [List.map_cons, List.map_nil, numeral, List.foldl_cons, List.foldl_nil,
        digitChar_byte lt]
      omega
    · have h := ih (n / 10) (by omega)
      unfold Bytes.ofNat at h
      rw [List.map_append, numeral_append, h]
      simp only [List.map_cons, List.map_nil, numeral, List.foldl_cons, List.foldl_nil,
        digitChar_byte (Nat.mod_lt n (by omega : 10 > 0)), List.length_cons, List.length_nil]
      omega

theorem isDigit_of_mem_ofNat {n : Nat} {c : UInt8} (h : c ∈ Bytes.ofNat n) :
    Read.isDigit c = true := by
  obtain ⟨d, hd, rfl⟩ := List.mem_map.mp h
  have digit := Nat.isDigit_of_mem_toDigits (by omega) (by omega) hd
  obtain ⟨low, high⟩ := Char.isDigit_iff_toNat.mp digit
  have byte : (Bytes.byte d).toNat = d.toNat := by
    show d.toNat % 256 = d.toNat
    have : d.toNat ≤ 57 := high
    exact Nat.mod_eq_of_lt (by omega)
  simp only [Read.isDigit, Bool.and_eq_true, decide_eq_true_eq, UInt8.le_iff_toNat_le, byte]
  exact ⟨low, high⟩

theorem stripZeros_append (ds : Bytes) : ∃ n, stripZeros ds ++ zeros n = ds := by
  induction ds using List.reverseRecOn with
  | nil => exact ⟨0, rfl⟩
  | append_singleton ds c ih =>
    by_cases zero : c = 48
    · obtain ⟨n, hn⟩ := ih
      have strip : stripZeros (ds ++ [c]) = stripZeros ds := by simp [stripZeros, zero]
      refine ⟨n + 1, ?_⟩
      conv_rhs => rw [← hn]
      rw [strip, zero]
      simp [zeros, List.replicate_succ']
    · refine ⟨0, ?_⟩
      simp [stripZeros, zeros, zero]

theorem isDigit_of_mem_stripZeros {ds : Bytes} (all : ∀ c ∈ ds, Read.isDigit c = true) :
    ∀ c ∈ stripZeros ds, Read.isDigit c = true := by
  intro c hc
  obtain ⟨n, hn⟩ := stripZeros_append ds
  apply all
  rw [← hn]
  exact List.mem_append_left _ hc

theorem numeral_stripZeros (k : Nat) :
    ∃ z, k = numeral (stripZeros (Bytes.ofNat k)) * 10 ^ z ∧
      (Bytes.ofNat k).length = (stripZeros (Bytes.ofNat k)).length + z := by
  obtain ⟨z, spelled⟩ := stripZeros_append (Bytes.ofNat k)
  refine ⟨z, ?_, ?_⟩
  · have h := numeral_append (stripZeros (Bytes.ofNat k)) (zeros z)
    rw [spelled, numeral_ofNat, numeral_zeros, Nat.add_zero] at h
    simpa [zeros] using h
  · have h := congrArg List.length spelled
    simpa [zeros] using h.symm

theorem ofNat_leads {n : Nat} (positive : n ≠ 0) : 10 ^ ((Bytes.ofNat n).length - 1) ≤ n := by
  unfold Bytes.ofNat
  rw [List.length_map]
  by_cases single : (Nat.toDigits 10 n).length ≤ 1
  · rw [Nat.sub_eq_zero_of_le single]
    exact Nat.one_le_iff_ne_zero.mpr positive
  · by_contra less
    have short := (Nat.length_toDigits_le_iff (by decide) (by omega)).mpr (not_le.mp less)
    omega

def value (d : Decimal) : ℚ := numeral d.digits * 10 ^ (d.point - d.digits.length)

/-- The shortest digits read back: they lie in the rounding interval. -/
theorem shortest_rounds {m : Nat} {e : Int} (positive : m ≠ 0) (fits : Fits m e) :
    Rounds m e (shortest m e).value := by
  have reached := magnitude_reached m e 8 _ (start_near positive fits)
  obtain ⟨p, hp⟩ : ∃ p, (span m e).magnitude 8 ((Nat.log2 m + e + 1) * 30103 / 100000 + 2) = p :=
    ⟨_, rfl⟩
  rw [hp] at reached
  have hit := search_hit (by omega) (by omega : 17 < 1 + 18) (pick_seventeen positive fits reached)
  obtain ⟨k, n, found⟩ : ∃ k n, (span m e).search p 18 1 = (k, n) := ⟨_, _, rfl⟩
  rw [found] at hit
  have written : shortest m e =
      ⟨stripZeros (Bytes.ofNat k), p + (Bytes.ofNat k).length - n⟩ := by
    unfold shortest
    rw [if_neg (by simp [positive])]
    simp only [hp, found]
  rw [written]
  have rounds := (accepts_iff positive k (p - n)).mp (pick_accepts hit)
  obtain ⟨z, number, length⟩ := numeral_stripZeros k
  have same : value ⟨stripZeros (Bytes.ofNat k), p + (Bytes.ofNat k).length - n⟩ =
      k * 10 ^ (p - n : Int) := by
    unfold value
    conv_rhs => rw [number]
    have shift : p + ((Bytes.ofNat k).length : Int) - n - (stripZeros (Bytes.ofNat k)).length =
        z + (p - n) := by
      rw [length]
      push_cast
      ring
    simp only [shift]
    rw [zpow_add₀ (by norm_num), zpow_natCast]
    push_cast
    ring
  rw [same]
  exact rounds

theorem shortest_digits {m : Nat} {e : Int} (some : (shortest m e).digits ≠ []) :
    ∃ k, (shortest m e).digits = stripZeros (Bytes.ofNat k) := by
  unfold shortest at some ⊢
  split
  · rename_i zero
    rw [if_pos zero] at some
    exact absurd rfl some
  · exact ⟨_, rfl⟩

theorem isDigit_of_mem_shortest {m : Nat} {e : Int} :
    ∀ c ∈ (shortest m e).digits, Read.isDigit c = true := by
  intro c found
  obtain ⟨k, written⟩ := shortest_digits (List.ne_nil_of_mem found)
  rw [written] at found
  exact isDigit_of_mem_stripZeros (fun _ => isDigit_of_mem_ofNat) c found

theorem shortest_leads {m : Nat} {e : Int} (some : (shortest m e).digits ≠ []) :
    10 ^ ((shortest m e).digits.length - 1) ≤ numeral (shortest m e).digits := by
  obtain ⟨k, written⟩ := shortest_digits some
  rw [written] at some ⊢
  obtain ⟨z, number, length⟩ := numeral_stripZeros k
  have long : 0 < (stripZeros (Bytes.ofNat k)).length := List.length_pos_iff.mpr some
  have filled : k ≠ 0 := by
    rintro rfl
    exact some rfl
  have leads := ofNat_leads filled
  have split : (Bytes.ofNat k).length - 1 = (stripZeros (Bytes.ofNat k)).length - 1 + z := by omega
  rw [split, Nat.pow_add] at leads
  exact Nat.le_of_mul_le_mul_right (leads.trans number.le) (Nat.pow_pos (by decide))

end DistanceField.Decimal
